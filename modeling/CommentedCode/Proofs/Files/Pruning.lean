import CommentedCode.Files.Discovery
import CommentedCode.Proofs.Ignore.Reading
import Mathlib.Data.List.Basic
/-!
# Pruned walks

A walk does not enter ignored directories.  Without negated patterns and brackets it finds the
same files as a walk that enters all of them and looks at the paths of the files alone.
-/
namespace CommentedCode

/-- The paths of the regular files at any depth, in the order of the entries. -/
def Listing.files : Listing → List (List Text)
  | .empty => []
  | .file name _ rest => [name] :: rest.files
  | .link _ _ rest => rest.files
  | .directory name inside rest => inside.files.map (name :: ·) ++ rest.files

private theorem Listing.ne_nil_of_mem_files {l : Listing} {parts : List Text}
    (h : parts ∈ l.files) : parts ≠ [] := by
  induction l with
  | empty => simp [files] at h
  | file name content rest ih =>
    rcases List.mem_cons.mp h with rfl | h
    · simp
    · exact ih h
  | link name target rest ih => exact ih h
  | directory name inside rest _ ih =>
    rcases List.mem_append.mp h with h | h
    · obtain ⟨tail, -, rfl⟩ := List.mem_map.mp h
      simp
    · exact ih h

private theorem Path.joined_append {above parts : List Text} (ha : above ≠ []) (hp : parts ≠ []) :
    joined (above ++ parts) = joined above ++ '/' :: joined parts := by
  obtain ⟨front, a, rfl⟩ := above.eq_nil_or_concat'.resolve_left ha
  obtain ⟨ps, last, rfl⟩ := parts.eq_nil_or_concat'.resolve_left hp
  simp only [joined]
  rw [← List.append_assoc (front ++ [a]), Text.join_concat, Text.join_concat, Text.join_concat,
    List.flatMap_append, List.flatMap_append, List.flatMap_singleton]
  simp only [List.append_assoc, List.cons_append, List.nil_append]

namespace Discovery

/-- Whether a filter lets a file through by its path alone: its name is accepted, none of the
directories above holds version control data, and the path is not ignored. -/
def Filter.keepsPath (f : Filter) (above parts : List Text) : Bool :=
  parts.getLast?.any f.accepts && !parts.dropLast.contains versionControl &&
    !f.ignores (Path.joined (above ++ parts))

/-- Whatever lies below an ignored directory is ignored itself. -/
def Filter.Inherits (f : Filter) : Prop :=
  ∀ d more, d ≠ [] → more ≠ [] → f.ignores (Path.joined d ++ ['/']) = true →
    f.ignores (Path.joined (d ++ more)) = true

private theorem Filter.keepsPath_singleton (f : Filter) (above : List Text) (name : Text) :
    f.keepsPath above [name] = f.keepsFile above name := by
  simp [keepsPath, keepsFile]

private theorem Filter.keepsPath_cons (f : Filter) (above : List Text) (name : Text)
    {parts : List Text} (hp : parts ≠ []) :
    f.keepsPath above (name :: parts) =
      (decide (name ≠ versionControl) && f.keepsPath (above ++ [name]) parts) := by
  obtain ⟨first, rest, rfl⟩ := List.exists_cons_of_ne_nil hp
  by_cases hv : name = versionControl
  · simp [keepsPath, hv]
  · simp [keepsPath, hv, Ne.symm hv]

private theorem filter_directory {f : Filter} (hf : f.Inherits) (above : List Text) (name : Text)
    {paths : List (List Text)} (hp : ∀ parts ∈ paths, parts ≠ []) :
    ((paths.map (name :: ·)).filter (f.keepsPath above)).map (above ++ ·) =
      if f.entersDirectory above name then
        (paths.filter (f.keepsPath (above ++ [name]))).map (above ++ [name] ++ ·)
      else [] := by
  rw [List.filter_map]
  split
  · rename_i he
    have hname : name ≠ versionControl := by
      simp only [Filter.entersDirectory, Bool.and_eq_true, decide_eq_true_eq] at he
      exact he.1
    rw [List.map_map]
    have hsame : paths.filter (f.keepsPath above ∘ (name :: ·)) =
        paths.filter (f.keepsPath (above ++ [name])) := by
      apply List.filter_congr
      intro parts hparts
      simp [f.keepsPath_cons above name (hp parts hparts), hname]
    rw [hsame]
    apply List.map_congr_left
    intro parts _
    simp
  · rename_i he
    have hnone : paths.filter (f.keepsPath above ∘ (name :: ·)) = [] := by
      apply List.filter_eq_nil_iff.mpr
      intro parts hparts hk
      rw [Function.comp_apply, f.keepsPath_cons above name (hp parts hparts)] at hk
      simp only [Filter.keepsPath, Bool.and_eq_true, decide_eq_true_eq, Bool.not_eq_true'] at hk
      apply he
      simp only [Filter.entersDirectory, Bool.and_eq_true, decide_eq_true_eq, Bool.not_eq_true']
      refine ⟨hk.1, ?_⟩
      apply Bool.eq_false_iff.mpr
      intro hi
      have hbelow := hf (above ++ [name]) parts (by simp) (hp parts hparts) hi
      rw [hk.2.2] at hbelow
      cases hbelow
    rw [hnone]
    rfl

private theorem walk_eq_filter {f : Filter} (hf : f.Inherits) (above : List Text) {l : Listing}
    (hl : l.linkFree = true) :
    walk f above l = (l.files.filter (f.keepsPath above)).map (above ++ ·) := by
  induction l generalizing above with
  | empty => rfl
  | file name content rest ih =>
    rw [walk, ih above hl, Listing.files, ← f.keepsPath_singleton above name]
    cases hk : f.keepsPath above [name] with
    | true => rw [List.filter_cons_of_pos hk]; rfl
    | false => rw [List.filter_cons_of_neg (by simp [hk])]; rfl
  | link name target rest ih => simp [Listing.linkFree] at hl
  | directory name inside rest ihInside ihRest =>
    simp only [Listing.linkFree, Bool.and_eq_true] at hl
    rw [walk, ihInside (above ++ [name]) hl.1, ihRest above hl.2, Listing.files,
      List.filter_append, List.map_append,
      filter_directory hf above name (fun _ => Listing.ne_nil_of_mem_files)]

/-- Rules that say of everything below a directory what they say of the directory. -/
theorem ignores_below {specs : List Ignore.Rules} (hs : ∀ rules ∈ specs, rules.IsPlain)
    {d more : List Text} (hd : d ≠ []) (hm : more ≠ []) {rules : Ignore.Rules}
    (hr : rules ∈ specs) (h : rules.ignores (Path.joined d ++ ['/']) = true) :
    rules.ignores (Path.joined (d ++ more)) = true := by
  rw [Path.joined_append hd hm]
  exact (hs rules hr).ignores_below h _

/-- Early pruning agrees with plain filtering: a walk finds the files that are kept when their
own paths are looked at, and what lies below a pruned directory is ignored by the same rules. -/
theorem below_eq_filter (fs : FileSystem) (extensions : List Text) (specs : List Ignore.Rules)
    (start : List Text) (inside : Listing) (hs : ∀ rules ∈ specs, rules.IsPlain)
    (hd : fs.top.at? start = some (.directory inside)) (hl : inside.linkFree = true) :
    below fs extensions specs start =
      (inside.files.filter fun parts =>
        parts.getLast?.any (acceptedBy extensions) && !parts.dropLast.contains versionControl &&
          !specs.any (·.ignores (Path.joined parts))).map (start ++ ·) ∧
    ∀ d more, d ≠ [] → more ≠ [] → ∀ rules ∈ specs,
      rules.ignores (Path.joined d ++ ['/']) = true →
        rules.ignores (Path.joined (d ++ more)) = true := by
  refine ⟨?_, fun d more hd hm rules hr h => ignores_below hs hd hm hr h⟩
  simp only [below, hd]
  rw [walk_eq_filter _ [] hl]
  · simp only [List.nil_append, List.map_id']
    rfl
  · intro d more hd hm h
    obtain ⟨rules, hr, h⟩ := List.any_eq_true.mp h
    exact List.any_eq_true.mpr ⟨rules, hr, ignores_below hs hd hm hr h⟩

/-- A last segment of stars prunes its directory; version control data is left out as well. -/
theorem below_eq_filter_stars :
    let inside : Listing :=
      .directory ['g'] (.directory ['x'] (.file ['b', '.', 'j'] (some []) .empty) .empty)
        (.directory versionControl (.file ['c', '.', 'j'] (some []) .empty)
          (.directory ['s'] (.file ['D', '.', 'J'] (some []) (.file ['e'] (some []) .empty))
            .empty))
    let rules : Ignore.Rules := [⟨true, .anchored
      [.glyph (.char 'g'), .slash, .glyph .run, .glyph .run, .glyph .run, .finish]⟩]
    rules.IsPlain ∧ Listing.at? [] inside = some (.directory inside) ∧
      inside.linkFree = true ∧ rules.ignores ['g', '/'] = true ∧
      below ⟨inside, []⟩ [['.', 'j']] [rules] [] = [[['s'], ['D', '.', 'J']]] := by
  intro inside rules
  have hread : Ignore.Rules.ofLines? [['g', '/', '*', '*', '*']] = .ok (some rules) := by cbv
  have hplain : rules.IsPlain := ⟨_, hread, by decide⟩
  have hall : ∀ r ∈ [rules], Ignore.Rules.IsPlain r := by simpa using hplain
  have hfree : inside.linkFree = true := by decide
  refine ⟨hplain, rfl, hfree, by decide, ?_⟩
  rw [(below_eq_filter ⟨inside, []⟩ [['.', 'j']] [rules] [] inside hall rfl hfree).1]
  decide +kernel

end Discovery
end CommentedCode
