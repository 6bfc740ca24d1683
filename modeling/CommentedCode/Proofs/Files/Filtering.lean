import CommentedCode.Proofs.Files.Returning
import CommentedCode.Proofs.Ignore.Appending
import Mathlib.Data.List.Forall2
/-!
# Filters only remove

A walk whose filter ignores more finds less.  So patterns to exclude that do not negate, and the
rules of the directories themselves, only take files away.  A file that is named is never left out.
-/
namespace CommentedCode

namespace Discovery

/-- A filter that differs from `g` in that it ignores more. -/
structure Filter.Narrower (f g : Filter) : Prop where
  accepts : f.accepts = g.accepts
  ignores : ∀ path, g.ignores path = true → f.ignores path = true
  leadsToDirectory : f.leadsToDirectory = g.leadsToDirectory

namespace Filter.Narrower

variable {f g : Filter} (h : f.Narrower g)
include h

private theorem not_ignores {path : Text} (hf : f.ignores path = false) :
    g.ignores path = false := by
  cases hg : g.ignores path with
  | false => rfl
  | true => rw [h.ignores path hg] at hf; cases hf

theorem keepsFile {above : List Text} {name : Text} (hf : f.keepsFile above name = true) :
    g.keepsFile above name = true := by
  simp only [Filter.keepsFile, Bool.and_eq_true, Bool.not_eq_true'] at hf ⊢
  exact ⟨h.accepts ▸ hf.1, h.not_ignores hf.2⟩

theorem entersDirectory {above : List Text} {name : Text}
    (hf : f.entersDirectory above name = true) : g.entersDirectory above name = true := by
  simp only [Filter.entersDirectory, Bool.and_eq_true, Bool.not_eq_true'] at hf ⊢
  exact ⟨hf.1, h.not_ignores hf.2⟩

private theorem walk_subset (above : List Text) (l : Listing) :
    walk f above l ⊆ walk g above l := by
  intro parts
  induction l generalizing above with
  | empty => exact id
  | file name content rest ih =>
    simp only [walk, List.mem_append, List.mem_ite_nil_right]
    exact Or.imp (And.imp_left h.keepsFile) (ih above)
  | link name target rest ih =>
    simp only [walk, List.mem_append, List.mem_ite_nil_right, Bool.and_eq_true, h.leadsToDirectory]
    exact Or.imp (And.imp_left (And.imp_right h.keepsFile)) (ih above)
  | directory name inside rest ihInside ihRest =>
    simp only [walk, List.mem_append, List.mem_ite_nil_right]
    exact Or.imp (And.imp h.entersDirectory (ihInside (above ++ [name]))) (ihRest above)

end Filter.Narrower

/-- Whatever the rules `fewer` ignore, `more` ignore too. -/
def IgnoresMore (more fewer : List Ignore.Rules) : Prop :=
  ∀ path, fewer.any (·.ignores path) = true → more.any (·.ignores path) = true

theorem IgnoresMore.append {more fewer own less : List Ignore.Rules} (h : IgnoresMore own less)
    (hrest : IgnoresMore more fewer) : IgnoresMore (own ++ more) (less ++ fewer) := by
  intro path
  simp only [List.any_append, Bool.or_eq_true]
  exact Or.imp (h path) (hrest path)

private theorem below_subset (fs : FileSystem) (extensions : List Text)
    {more fewer : List Ignore.Rules} (h : IgnoresMore more fewer) (start : List Text) :
    below fs extensions more start ⊆
      below fs extensions fewer start := by
  have hfilter : (filterFrom fs extensions more start).Narrower
      (filterFrom fs extensions fewer start) := ⟨rfl, h, rfl⟩
  simp only [below]
  split
  · exact List.map_subset _ (hfilter.walk_subset [] _)
  · exact List.Subset.refl _

/-- Two searches that both succeed, with results in a relation, or miss the same path. -/
inductive InStep {α β : Type} (missing : Path → Prop) (r : α → β → Prop) :
    Except DiscoveryError α → Except DiscoveryError β → Prop
  | found {a : α} {b : β} : r a b → InStep missing r (.ok a) (.ok b)
  | missing {p : Path} : missing p →
      InStep missing r (.error (.notFound p)) (.error (.notFound p))

namespace InStep

variable {α β γ δ : Type} {missing : Path → Prop} {r : α → β → Prop} {s : γ → δ → Prop}
  {x : Except DiscoveryError α} {y : Except DiscoveryError β}

theorem bind (h : InStep missing r x y) {f : α → Except DiscoveryError γ}
    {g : β → Except DiscoveryError δ} (hfg : ∀ a b, r a b → InStep missing s (f a) (g b)) :
    InStep missing s (x >>= f) (y >>= g) := by
  cases h with
  | found hr => exact hfg _ _ hr
  | missing hp => exact .missing hp

theorem map (h : InStep missing r x y) {f : α → γ} {g : β → δ}
    (hfg : ∀ a b, r a b → s (f a) (g b)) : InStep missing s (x.map f) (y.map g) := by
  cases h with
  | found hr => exact .found (hfg _ _ hr)
  | missing hp => exact .missing hp

theorem mapM {f : Path → Except DiscoveryError α} {g : Path → Except DiscoveryError β}
    {paths : List Path} (h : ∀ p ∈ paths, InStep missing r (f p) (g p)) :
    InStep missing (List.Forall₂ r) (paths.mapM f) (paths.mapM g) := by
  induction paths with
  | nil => exact .found .nil
  | cons p ps ih =>
    obtain ⟨hp, hps⟩ := List.forall_mem_cons.mp h
    rw [List.mapM_cons, List.mapM_cons]
    exact hp.bind fun a b hab => (ih hps).bind fun as bs hrest => .found (.cons hab hrest)

private theorem of_not_missing (h : InStep missing r x y) (hnone : ∀ p, ¬missing p) :
    ∃ a b, x = .ok a ∧ y = .ok b ∧ r a b := by
  cases h with
  | found hr => exact ⟨_, _, rfl, rfl, hr⟩
  | missing hp => exact absurd hp (hnone _)

end InStep

private theorem exists_ownRules {fs : FileSystem} (q : Query) {p : Path}
    (h : ∃ own, rulesIn fs p = .ok own) : ∃ own, ownRules fs q p = .ok own := by
  rw [ownRules]
  split
  · exact h
  · exact ⟨none, rfl⟩

private theorem foldl_union_subset {more fewer : List (List (List Text))}
    {found all : List (List Text)} (h : List.Forall₂ (· ⊆ ·) fewer more) (hfound : found ⊆ all) :
    fewer.foldl union found ⊆ more.foldl union all := by
  induction h generalizing found all with
  | nil => exact hfound
  | cons hfirst _ ih =>
    refine ih fun parts hparts => ?_
    rw [mem_union] at hparts ⊢
    exact hparts.imp (@hfound parts) (@hfirst parts)

section

variable {fs : FileSystem} (hlinks : fs.top.linkFree = true) (q wide : Query)
  (hextensions : q.extensions = wide.extensions) {narrowing widening : Option Ignore.Rules}
include hlinks hextensions

private theorem inStep_filesAt {missing : Path → Prop} {p : Path}
    (hmissing : fs.exists? p = false → missing p)
    (hrules : fs.isDirectory p = true → ∃ own less, ownRules fs q p = .ok own ∧
      ownRules fs wide p = .ok less ∧
      IgnoresMore (own.toList ++ narrowing.toList) (less.toList ++ widening.toList)) :
    InStep missing (· ⊆ ·) (filesAt fs q narrowing p) (filesAt fs wide widening p) := by
  cases hexists : fs.exists? p with
  | false =>
    rw [filesAt_missing hexists, filesAt_missing hexists]
    exact .missing (hmissing hexists)
  | true =>
    obtain ⟨start, hstart⟩ := Option.isSome_iff_exists.mp (FileSystem.isSome_resolve? hlinks p)
    cases hfile : fs.isFile p with
    | true =>
      rw [filesAt_file hfile hstart, filesAt_file hfile hstart]
      exact .found (List.Subset.refl _)
    | false =>
      obtain ⟨own, less, hown, hless, hignores⟩ :=
        hrules (FileSystem.isDirectory_of_linkFree hlinks hexists hfile)
      have hreal (found : List (List Text)) : ∃ real, resolveAll fs found = .ok real :=
        exists_resolveAll fun parts _ => FileSystem.isSome_resolve? hlinks _
      obtain ⟨fewer, hfewer⟩ :=
        hreal (below fs q.extensions (own.toList ++ narrowing.toList) start)
      obtain ⟨more, hmore⟩ :=
        hreal (below fs wide.extensions (less.toList ++ widening.toList) start)
      rw [filesAt_walked hexists hfile hstart, filesAt_walked hexists hfile hstart, hown, hless]
      change InStep missing _ (resolveAll fs _) (resolveAll fs _)
      rw [hfewer, hmore]
      refine .found fun parts hparts => ?_
      obtain ⟨p, hp, hresolves⟩ := (resolveAll_ok hfewer).mp hparts
      rw [hextensions] at hp
      exact (resolveAll_ok hmore).mpr ⟨p, below_subset fs _ hignores start hp, hresolves⟩

private theorem inStep_collect {paths : List Path}
    (hnarrowing : Ignore.Rules.ofLines? q.exclude = .ok narrowing)
    (hwidening : Ignore.Rules.ofLines? wide.exclude = .ok widening)
    (hrules : ∀ p ∈ paths, fs.isDirectory p = true → ∃ own less,
      ownRules fs q p = .ok own ∧ ownRules fs wide p = .ok less ∧
      IgnoresMore (own.toList ++ narrowing.toList) (less.toList ++ widening.toList)) :
    InStep (fun p => p ∈ paths ∧ fs.exists? p = false) (· ⊆ ·) (collect fs q paths).outcome
      (collect fs wide paths).outcome := by
  have hall : InStep (fun p => p ∈ paths ∧ fs.exists? p = false) (List.Forall₂ (· ⊆ ·))
      (paths.mapM (filesAt fs q narrowing)) (paths.mapM (filesAt fs wide widening)) :=
    InStep.mapM fun p hp => inStep_filesAt hlinks q wide hextensions (⟨hp, ·⟩) (hrules p hp)
  rw [outcome_collect, outcome_collect, hnarrowing, hwidening]
  refine hall.map fun fewer more h parts hparts => ?_
  rw [mem_ascending] at hparts ⊢
  exact foldl_union_subset h (List.Subset.refl []) hparts

end

private theorem mem_of_collect {fs : FileSystem} {q : Query} {paths : List Path}
    {found : List (List Text)} (h : (collect fs q paths).outcome = .ok found) {p : Path}
    (hp : p ∈ paths) (hfile : fs.isFile p = true) {start : List Text}
    (hstart : fs.resolve? p = some start) :
    start ∈ found := by
  obtain ⟨excluded, hmem⟩ := mem_iff_of_collect h
  exact (hmem start).mpr
    ⟨p, hp, [start], filesAt_file hfile hstart, List.mem_singleton_self start⟩

/-- More patterns to exclude that do not negate, and the rules of the directories themselves, only
take files away; a file that is named is collected all the same. -/
theorem collect_filters {fs : FileSystem} (hlinks : fs.top.linkFree = true) (q : Query)
    (more : List Text) (paths : List Path)
    (hmore : ∀ line ∈ more, (Text.trim line).head? ≠ some '!')
    (hexclude : ∃ rules, Ignore.Rules.ofLines? (q.exclude ++ more) = .ok rules)
    (hignore : ∀ p ∈ paths, fs.isDirectory p = true → ∃ own, rulesIn fs p = .ok own) :
    InStep (fun p => p ∈ paths ∧ fs.exists? p = false) (· ⊆ ·)
        (collect fs { q with exclude := q.exclude ++ more } paths).outcome
        (collect fs q paths).outcome ∧
      InStep (fun p => p ∈ paths ∧ fs.exists? p = false) (· ⊆ ·)
        (collect fs { q with respectGitignore := true } paths).outcome
        (collect fs { q with respectGitignore := false } paths).outcome ∧
      ∀ p ∈ paths, fs.isFile p = true → ∃ parts, fs.resolve? p = some parts ∧
        ∀ exclude respectGitignore found,
          (collect fs ⟨q.extensions, exclude, respectGitignore⟩ paths).outcome = .ok found →
            parts ∈ found := by
  obtain ⟨all, hall⟩ := hexclude
  obtain ⟨excluded, hexcluded, hignores⟩ := Ignore.Rules.ofLines?_append_ok hmore hall
  refine ⟨?_, ?_, ?_⟩
  · refine inStep_collect hlinks { q with exclude := q.exclude ++ more } q rfl hall hexcluded
      fun p hp hdirectory => ?_
    obtain ⟨own, hown⟩ := exists_ownRules q (hignore p hp hdirectory)
    exact ⟨own, own, hown, hown, IgnoresMore.append (fun _ => id) hignores⟩
  · refine inStep_collect hlinks { q with respectGitignore := true }
      { q with respectGitignore := false } rfl hexcluded hexcluded
      fun p hp hdirectory => ?_
    obtain ⟨own, hown⟩ := hignore p hp hdirectory
    exact ⟨own, none, hown, rfl, IgnoresMore.append nofun fun _ => id⟩
  · intro p hp hfile
    obtain ⟨start, hstart⟩ := Option.isSome_iff_exists.mp (FileSystem.isSome_resolve? hlinks p)
    exact ⟨start, hstart, fun _ _ _ hfound => mem_of_collect hfound hp hfile hstart⟩

/-- A file that a negated pattern kept is excluded by one more, but it is named. -/
theorem collect_filters_named :
    let k : Text := ['k', '.', 'j']
    let fs : FileSystem := ⟨.file ignoreFile (Utf8.encode "x.j".toList)
      (.file k (some []) (.file ['x', '.', 'j'] (some []) .empty)), []⟩
    let q : Query := ⟨[['.', 'j']], [['*', '.', 'j'], '!' :: k], true⟩
    let paths := [Path.absolute [k], Path.absolute []]
    (fs.top.linkFree = true ∧ (∀ line ∈ [k], (Text.trim line).head? ≠ some '!') ∧
      (∃ rules, Ignore.Rules.ofLines? (q.exclude ++ [k]) = .ok rules) ∧
      ∀ p ∈ paths, fs.isDirectory p = true → ∃ own, rulesIn fs p = .ok own) ∧
    ∃ fewer found, (collect fs { q with exclude := q.exclude ++ [k] } paths).outcome = .ok fewer ∧
      (collect fs q paths).outcome = .ok found ∧ fewer ⊆ found ∧ [k] ∈ fewer := by
  intro k fs q paths
  have htree : fs.top.IsTree := ⟨by decide, by decide⟩
  have hmore : ∀ line ∈ [k], (Text.trim line).head? ≠ some '!' := by decide
  have hexclude : ∃ rules, Ignore.Rules.ofLines? (q.exclude ++ [k]) = .ok rules := by
    have hlines : Ignore.Rules.patternLines (q.exclude ++ [k]) =
        [['*', '.', 'j'], '!' :: k, k] := by
      decide
    refine (Ignore.returnsIff_ofLines? _).returns ?_
    simp only [hlines, List.forall_mem_cons]
    refine ⟨?_, ?_, ?_, List.forall_mem_nil _⟩ <;> rw [Ignore.wellFormed_iff (by decide)] <;>
      exact ⟨by decide, by decide, by decide⟩
  have hfile : fs.stat (Path.absolute [k]) = .ok (.file (some [])) := by
    have hat : fs.top.at? [k] = some (.file (some [])) := rfl
    exact FileSystem.stat_at? htree hat (by simp)
  have hignore : ∀ p ∈ paths, fs.isDirectory p = true → ∃ own, rulesIn fs p = .ok own := by
    refine List.forall_mem_cons.mpr ⟨fun h => ?_, List.forall_mem_singleton.mpr fun _ => ?_⟩
    · rw [FileSystem.isDirectory, hfile] at h
      cases h
    · have hread : fs.read (ignoreFileIn (Path.absolute [])) =
          .ok (Utf8.encode "x.j".toList) := by
        have hhere : fs.top.at? [ignoreFile] = some (.file (Utf8.encode "x.j".toList)) := rfl
        exact FileSystem.read_at? htree hhere
      have hlines : Ignore.Rules.patternLines (Text.splitAtBreaks (Source.ofBytes
        (Utf8.encode "x.j".toList))) = [['x', '.', 'j']] := by decide
      rw [rulesIn_of_read hread]
      refine (returnsIff_rulesOf _).returns ?_
      rw [hlines, List.forall_mem_singleton, Ignore.wellFormed_iff (by decide)]
      exact ⟨by decide, by decide, by decide⟩
  have hexists : ∀ p ∈ paths, fs.exists? p = true := by
    refine List.forall_mem_cons.mpr ⟨by rw [FileSystem.exists?, hfile], ?_⟩
    have htop : fs.stat (Path.absolute []) = .ok (.directory fs.top) :=
      FileSystem.stat_at? htree rfl (by simp)
    exact List.forall_mem_singleton.mpr (by rw [FileSystem.exists?, htop])
  refine ⟨⟨rfl, hmore, hexclude, hignore⟩, ?_⟩
  obtain ⟨hfewer, -, hkept⟩ := collect_filters rfl q [k] paths hmore hexclude hignore
  obtain ⟨fewer, found, hfewer, hfound, hsubset⟩ := hfewer.of_not_missing fun p hp => by
    rw [hexists p hp.1] at hp
    cases hp.2
  obtain ⟨start, hstart, hmem⟩ := hkept (Path.absolute [k]) List.mem_cons_self
    (by rw [FileSystem.isFile, hfile])
  have hk : fs.resolve? (Path.absolute [k]) = some [k] := by
    have hat : fs.top.at? [k] = some (.file (some [])) := rfl
    exact FileSystem.resolve?_at? htree hat (by simp)
  obtain rfl := Option.some.inj (hk.symm.trans hstart)
  exact ⟨fewer, found, hfewer, hfound, hsubset, hmem _ _ _ hfewer⟩

end Discovery
end CommentedCode
