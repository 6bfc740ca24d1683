import CommentedCode.Proofs.Files.Returning
import Mathlib.Data.List.Sort
/-!
# Collections of several paths

What is collected for several paths is the union of what each of them stands for, in ascending
order.  So neither the order of the paths matters nor whether they overlap or are repeated.  The
first path that is missing ends a collection.
-/
namespace CommentedCode.Discovery

variable {fs : FileSystem} {q : Query} {excluded : Option Ignore.Rules}

private theorem outcome_collect_of_rules
    (hexcluded : Ignore.Rules.ofLines? q.exclude = .ok excluded) (paths : List Path) :
    (collect fs q paths).outcome =
      (paths.mapM (filesAt fs q excluded)).map fun all => ascending (all.foldl union []) := by
  rw [outcome_collect, hexcluded]
  rfl

private theorem exists_mapM_filesAt {paths : List Path}
    (h : ∀ p ∈ paths, ∃ more, filesAt fs q excluded p = .ok more) :
    ∃ all, paths.mapM (filesAt fs q excluded) = .ok all := by
  have hmapM : ReturnsIff (∀ p ∈ paths, True) (fun _ => True)
      (paths.mapM (filesAt fs q excluded)) :=
    .mapM fun p hp => .of_ok (h p hp) trivial
  exact hmapM.returns fun _ _ => trivial

/-- What is collected stands for one of the paths, and every path stands for something. -/
theorem collect_eq_ok_iff (hexcluded : Ignore.Rules.ofLines? q.exclude = .ok excluded)
    {paths : List Path} {found : List (List Text)} :
    (collect fs q paths).outcome = .ok found ↔ found.Pairwise (· < ·) ∧
      (∀ p ∈ paths, ∃ more, filesAt fs q excluded p = .ok more) ∧
      ∀ parts, parts ∈ found ↔
        ∃ p ∈ paths, ∃ more, filesAt fs q excluded p = .ok more ∧ parts ∈ more := by
  have hsorted (all : List (List (List Text))) :
      (ascending (all.foldl union [])).Pairwise (· < ·) :=
    pairwise_ascending (nodup_foldl_union List.nodup_nil all)
  rw [outcome_collect_of_rules hexcluded]
  constructor
  · intro h
    obtain ⟨all, hall, rfl⟩ := map_ok h
    refine ⟨hsorted all, ?_, mem_ascending_foldl_union hall⟩
    intro p hp
    obtain ⟨more, -, hmore⟩ := exists_of_mapM_ok hall hp
    exact ⟨more, hmore⟩
  · intro ⟨hfound, hreturns, hparts⟩
    obtain ⟨all, hall⟩ := exists_mapM_filesAt hreturns
    have hsame : ascending (all.foldl union []) = found := by
      apply (hsorted all).eq_of_mem_iff hfound
      intro parts
      rw [mem_ascending_foldl_union hall, hparts]
    rw [hall, Except.map, hsame]

section Paths

variable (hexcluded : Ignore.Rules.ofLines? q.exclude = .ok excluded)
include hexcluded

private theorem collect_congr {paths others : List Path} (h : ∀ p, p ∈ others ↔ p ∈ paths)
    {found : List (List Text)} (hfound : (collect fs q paths).outcome = .ok found) :
    (collect fs q others).outcome = .ok found := by
  rw [collect_eq_ok_iff hexcluded] at hfound ⊢
  simp only [h]
  exact hfound

private theorem collect_append {ps qs : List Path} {a b c : List (List Text)}
    (ha : (collect fs q ps).outcome = .ok a) (hb : (collect fs q qs).outcome = .ok b)
    (hc : (collect fs q (ps ++ qs)).outcome = .ok c) (parts : List Text) :
    parts ∈ c ↔ parts ∈ a ∨ parts ∈ b := by
  obtain ⟨-, -, hmema⟩ := (collect_eq_ok_iff hexcluded).mp ha
  obtain ⟨-, -, hmemb⟩ := (collect_eq_ok_iff hexcluded).mp hb
  obtain ⟨-, -, hmemc⟩ := (collect_eq_ok_iff hexcluded).mp hc
  rw [hmema, hmemb, hmemc]
  simp only [List.mem_append, or_and_right, exists_or]

private theorem collect_missing {front back : List Path} {p : Path}
    (hfront : ∀ r ∈ front, ∃ more, filesAt fs q excluded r = .ok more) (hp : fs.exists? p = false) :
    (collect fs q (front ++ p :: back)).outcome = .error (.notFound p) := by
  obtain ⟨all, hall⟩ := exists_mapM_filesAt hfront
  rw [outcome_collect_of_rules hexcluded, List.mapM_append, hall, List.mapM_cons,
    filesAt_missing hp]
  rfl

end Paths

private theorem exists_first_missing {paths : List Path} (h : ∃ p ∈ paths, fs.exists? p = false) :
    ∃ front p back, paths = front ++ p :: back ∧ (∀ r ∈ front, fs.exists? r = true) ∧
      fs.exists? p = false := by
  have hsome : (paths.find? fun p => !fs.exists? p).isSome = true := by
    rw [List.find?_isSome]
    obtain ⟨p, hp, hmissing⟩ := h
    exact ⟨p, hp, by rw [hmissing, Bool.not_false]⟩
  obtain ⟨p, hfind⟩ := Option.isSome_iff_exists.mp hsome
  obtain ⟨hmissing, front, back, hpaths, hfront⟩ := List.find?_eq_some_iff_append.mp hfind
  refine ⟨front, p, back, hpaths, ?_, by simpa using hmissing⟩
  intro r hr
  simpa using hfront r hr

/-- The files of two lists of paths are those of the one and those of the other, in ascending
order, whatever the order of the paths.  A missing path is an error in every order. -/
theorem collect_union (hlinks : FileSystem.LoopFree fs.top)
    (hexclude : ∀ line ∈ Ignore.Rules.patternLines q.exclude, Ignore.WellFormed line)
    {ps qs : List Path} (hrules : ∀ p ∈ ps ++ qs, fs.exists? p = true → ReadsAt fs q p) :
    ((∀ p ∈ ps ++ qs, fs.exists? p = true) →
      ∃ a b c, (collect fs q ps).outcome = .ok a ∧ (collect fs q qs).outcome = .ok b ∧
        (collect fs q (ps ++ qs)).outcome = .ok c ∧ c.Pairwise (· < ·) ∧
        (∀ parts, parts ∈ c ↔ parts ∈ a ∨ parts ∈ b) ∧ (b ⊆ a → c = a) ∧
        ∀ others, (∀ p, p ∈ others ↔ p ∈ ps ++ qs) → (collect fs q others).outcome = .ok c) ∧
    ((∃ p ∈ ps ++ qs, fs.exists? p = false) → ∀ others, others.Perm (ps ++ qs) →
      ∃ front p back, others = front ++ p :: back ∧ (∀ r ∈ front, fs.exists? r = true) ∧
        fs.exists? p = false ∧ (collect fs q others).outcome = .error (.notFound p) ∧
        (DiscoveryError.notFound p).userMessage? = some ("Path not found: ".toList ++ p.text)) := by
  obtain ⟨excluded, hexcluded⟩ := (Ignore.returnsIff_ofLines? q.exclude).returns hexclude
  have hfiles (p : Path) (hp : p ∈ ps ++ qs) (hexists : fs.exists? p = true) :
      ∃ more, filesAt fs q excluded p = .ok more :=
    (returnsIff_filesAt hlinks q excluded hp hexists).returns (hrules p hp hexists)
  constructor
  · intro hpaths
    have hcollect {paths : List Path} (hsub : paths ⊆ ps ++ qs) :
        ∃ found, (collect fs q paths).outcome = .ok found :=
      (returnsIff_collect hlinks q fun p hp => hpaths p (hsub hp)).returns
        ⟨hexclude, fun p hp => hrules p (hsub hp) (hpaths p (hsub hp))⟩
    obtain ⟨a, ha⟩ := hcollect (List.subset_append_left ps qs)
    obtain ⟨b, hb⟩ := hcollect (List.subset_append_right ps qs)
    obtain ⟨c, hc⟩ := hcollect (List.Subset.refl (ps ++ qs))
    have hmem (parts : List Text) : parts ∈ c ↔ parts ∈ a ∨ parts ∈ b :=
      collect_append hexcluded ha hb hc parts
    have hsorted : c.Pairwise (· < ·) := pairwise_of_collect hc
    refine ⟨a, b, c, ha, hb, hc, hsorted, hmem, ?_, fun others h => collect_congr hexcluded h hc⟩
    intro hsub
    apply hsorted.eq_of_mem_iff (pairwise_of_collect ha)
    intro parts
    rw [hmem]
    exact or_iff_left_of_imp (hsub ·)
  · intro hmissing others hperm
    have hothers : ∃ p ∈ others, fs.exists? p = false := by
      obtain ⟨p, hp, hnot⟩ := hmissing
      exact ⟨p, hperm.mem_iff.mpr hp, hnot⟩
    obtain ⟨front, p, back, rfl, hfront, hp⟩ := exists_first_missing hothers
    refine ⟨front, p, back, rfl, hfront, hp, collect_missing hexcluded ?_ hp, rfl⟩
    intro r hr
    exact hfiles r (hperm.mem_iff.mp (List.mem_append_left _ hr)) (hfront r hr)

/-- A directory with a file that is also named itself, and a path that is missing. -/
theorem collect_union_overlapping :
    let fs : FileSystem :=
      ⟨.file ".gitignore".toList (Utf8.encode "*.tmp\n".toList)
        (.file "A.java".toList (some []) .empty), []⟩
    let q : Query := ⟨[".java".toList], ["gen/".toList], true⟩
    let here := Path.ofText ['.']
    let file := Path.ofText "A.java".toList
    let missing := Path.ofText "B.java".toList
    (∃ c, (collect fs q [here, file]).outcome = .ok c ∧
      (collect fs q [file, here, file]).outcome = .ok c) ∧
    ∃ front p back, [here, missing, file] = front ++ p :: back ∧ fs.exists? p = false ∧
      (collect fs q [here, missing, file]).outcome = .error (.notFound p) := by
  intro fs q here file missing
  have hlinks : FileSystem.LoopFree fs.top := FileSystem.loopFree_of_linkFree rfl
  have hexclude : ∀ line ∈ Ignore.Rules.patternLines q.exclude, Ignore.WellFormed line := by
    have hlines : Ignore.Rules.patternLines q.exclude = ["gen/".toList] := by decide
    rw [hlines, List.forall_mem_singleton, Ignore.wellFormed_iff (by decide)]
    exact ⟨by decide, by decide, by decide⟩
  have hread : fs.read file = .ok [] :=
    FileSystem.read_of_find? rfl (by decide) (by decide)
  have hmissing : fs.exists? missing = false := by
    have hstat : fs.stat missing = .error .missing :=
      FileSystem.stat_of_find?_none rfl (by decide)
    rw [FileSystem.exists?, hstat]
  have hrules : ∀ p ∈ [here, missing, file], fs.exists? p = true → ReadsAt fs q p := by
    intro p hp hexists
    simp only [List.mem_cons, List.not_mem_nil, or_false] at hp
    rcases hp with rfl | rfl | rfl
    · exact fun _ _ => readsRules_here _
    · cases hmissing.symm.trans hexists
    · intro hfile
      cases (FileSystem.isFile_of_read hread).symm.trans hfile
  constructor
  · have hboth : [here] ++ [file] ⊆ [here, missing, file] := by simp
    have hpaths : ∀ p ∈ [here] ++ [file], fs.exists? p = true := by
      have hexists : fs.exists? file = true :=
        FileSystem.exists?_of_isFile (FileSystem.isFile_of_read hread)
      exact List.forall_mem_cons.mpr
        ⟨FileSystem.exists?_here _, List.forall_mem_singleton.mpr hexists⟩
    obtain ⟨_, _, c, _, _, hc, _, _, _, hothers⟩ :=
      (collect_union hlinks hexclude fun p hp => hrules p (hboth hp)).1 hpaths
    refine ⟨c, hc, hothers [file, here, file] fun p => ?_⟩
    simp only [List.mem_cons, List.mem_append]
    tauto
  · have hall : ∃ p ∈ [here, missing] ++ [file], fs.exists? p = false :=
      ⟨missing, by simp, hmissing⟩
    obtain ⟨front, p, back, hsplit, -, hp, herror, -⟩ :=
      (collect_union hlinks hexclude hrules).2 hall [here, missing, file] (List.Perm.refl _)
    exact ⟨front, p, back, hsplit, hp, herror⟩

end CommentedCode.Discovery
