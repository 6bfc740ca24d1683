import CommentedCode.Proofs.Files.Walk
import CommentedCode.Proofs.Outcome
import Mathlib.Data.Char
import Mathlib.Data.List.Lex
/-!
# Collected files

The files that paths stand for are put together without repetition and in ascending order.
-/
namespace CommentedCode

namespace Discovery

theorem mem_union {found more : List (List Text)} {parts : List Text} :
    parts ∈ union found more ↔ parts ∈ found ∨ parts ∈ more := by
  rw [union]
  induction more generalizing found with
  | nil => simp
  | cons first more ih =>
    rw [List.foldl_cons, ih, List.mem_cons, ← or_assoc]
    refine or_congr_left ?_
    split
    · rename_i hfirst
      refine ⟨.inl, fun h => h.elim id ?_⟩
      rintro rfl
      exact List.contains_iff_mem.mp hfirst
    · rw [List.mem_append, List.mem_singleton]

private theorem nodup_union {found : List (List Text)} (h : found.Nodup) (more : List (List Text)) :
    (union found more).Nodup := by
  rw [union]
  induction more generalizing found with
  | nil => exact h
  | cons first more ih =>
    rw [List.foldl_cons]
    split
    · exact ih h
    · rename_i hfirst
      refine ih (List.nodup_append.mpr ⟨h, List.pairwise_singleton _ first, ?_⟩)
      rintro parts hparts _ hmem rfl
      rw [List.mem_singleton.mp hmem] at hparts
      exact hfirst (List.contains_iff_mem.mpr hparts)

theorem mem_ascending {paths : List (List Text)} {parts : List Text} :
    parts ∈ ascending paths ↔ parts ∈ paths :=
  List.mem_mergeSort

theorem pairwise_ascending {paths : List (List Text)} (h : paths.Nodup) :
    (ascending paths).Pairwise (· < ·) := by
  have htrans (a b c : List Text) : (!Path.partsBefore b a) = true →
      (!Path.partsBefore c b) = true → (!Path.partsBefore c a) = true := by
    simp only [Path.partsBefore, Bool.not_eq_true', decide_eq_false_iff_not, not_lt]
    exact le_trans
  have htotal (a b : List Text) : (!Path.partsBefore b a || !Path.partsBefore a b) = true := by
    simp only [Path.partsBefore, Bool.or_eq_true, Bool.not_eq_true', decide_eq_false_iff_not,
      not_lt]
    exact le_total a b
  have hnodup : (ascending paths).Nodup := (List.mergeSort_perm paths _).nodup_iff.mpr h
  refine ((List.pairwise_mergeSort htrans htotal paths).and hnodup).imp fun {a b} ⟨hle, hne⟩ => ?_
  rw [Path.partsBefore, Bool.not_eq_true', decide_eq_false_iff_not] at hle
  exact lt_of_le_of_ne (not_lt.mp hle) hne

private theorem outcome_gather (fs : FileSystem) (q : Query) (excluded : Option Ignore.Rules)
    (found : List (List Text)) (paths : List Path) :
    (gather fs q excluded found paths).outcome =
      (paths.mapM (filesAt fs q excluded)).map (·.foldl union found) := by
  induction paths generalizing found with
  | nil => rfl
  | cons p ps ih =>
    rw [gather, Logged.outcome_bind, List.mapM_cons]
    change filesAt fs q excluded p >>= _ = _
    cases filesAt fs q excluded p with
    | error e => rfl
    | ok more =>
      change Logged.outcome _ = Except.map _ (List.mapM _ ps >>= _)
      split
      · rw [Logged.outcome_bind]
        change Logged.outcome (gather fs q excluded (union found more) ps) = _
        rw [ih]
        cases ps.mapM (filesAt fs q excluded) <;> rfl
      · change Logged.outcome (gather fs q excluded (union found more) ps) = _
        rw [ih]
        cases ps.mapM (filesAt fs q excluded) <;> rfl

theorem outcome_collect (fs : FileSystem) (q : Query) (paths : List Path) :
    (collect fs q paths).outcome =
      (Ignore.Rules.ofLines? q.exclude).mapError .pattern >>= fun excluded =>
        (paths.mapM (filesAt fs q excluded)).map fun all => ascending (all.foldl union []) := by
  rw [collect, Logged.outcome_bind]
  refine congrArg _ (funext fun excluded => ?_)
  rw [Logged.outcome_bind, outcome_gather]
  cases paths.mapM (filesAt fs q excluded) <;> rfl

private theorem mem_foldl_union {all : List (List (List Text))} {found : List (List Text)}
    {parts : List Text} :
    parts ∈ all.foldl union found ↔ parts ∈ found ∨ ∃ more ∈ all, parts ∈ more := by
  induction all generalizing found with
  | nil => simp
  | cons more all ih =>
    rw [List.foldl_cons, ih, mem_union, or_assoc]
    simp only [List.mem_cons, exists_eq_or_imp]

theorem nodup_foldl_union {found : List (List Text)} (h : found.Nodup)
    (all : List (List (List Text))) : (all.foldl union found).Nodup := by
  induction all generalizing found with
  | nil => exact h
  | cons more all ih => exact ih (nodup_union h more)

/-- The results for all paths hold what the result for one of them holds. -/
theorem mem_ascending_foldl_union {fs : FileSystem} {q : Query} {excluded : Option Ignore.Rules}
    {paths : List Path} {all : List (List (List Text))}
    (hall : paths.mapM (filesAt fs q excluded) = .ok all) (parts : List Text) :
    parts ∈ ascending (all.foldl union []) ↔
      ∃ p ∈ paths, ∃ more, filesAt fs q excluded p = .ok more ∧ parts ∈ more := by
  rw [mem_ascending, mem_foldl_union]
  constructor
  · intro h
    rcases h with hnil | ⟨more, hmore, hparts⟩
    · cases hnil
    · obtain ⟨p, hp, hfiles⟩ := exists_of_mem_mapM_ok hall hmore
      exact ⟨p, hp, more, hfiles, hparts⟩
  · intro ⟨p, hp, more, hfiles, hparts⟩
    obtain ⟨found, hfound, hsame⟩ := exists_of_mapM_ok hall hp
    cases hfiles.symm.trans hsame
    exact .inr ⟨more, hfound, hparts⟩

/-- What is collected is in strictly ascending order, so nothing is collected twice. -/
theorem pairwise_of_collect {fs : FileSystem} {q : Query} {paths : List Path}
    {found : List (List Text)} (h : (collect fs q paths).outcome = .ok found) :
    found.Pairwise (· < ·) := by
  rw [outcome_collect] at h
  obtain ⟨excluded, -, h⟩ := bind_ok.mp h
  obtain ⟨all, -, rfl⟩ := map_ok h
  exact pairwise_ascending (nodup_foldl_union List.nodup_nil all)

theorem mem_iff_of_collect {fs : FileSystem} {q : Query} {paths : List Path}
    {found : List (List Text)} (h : (collect fs q paths).outcome = .ok found) :
    ∃ excluded, ∀ parts, parts ∈ found ↔
      ∃ p ∈ paths, ∃ more, filesAt fs q excluded p = .ok more ∧ parts ∈ more := by
  rw [outcome_collect] at h
  obtain ⟨excluded, -, h⟩ := bind_ok.mp h
  obtain ⟨all, hall, rfl⟩ := map_ok h
  exact ⟨excluded, mem_ascending_foldl_union hall⟩

theorem resolveAll_ok {fs : FileSystem} {found real : List (List Text)}
    (h : resolveAll fs found = .ok real) {parts : List Text} :
    parts ∈ real ↔ ∃ p ∈ found, fs.resolve? (Path.absolute p) = some parts := by
  induction found generalizing real with
  | nil =>
    cases h
    simp
  | cons first found ih =>
    rw [resolveAll] at h
    split at h
    · cases h
    · rename_i hfirst
      obtain ⟨rest, hrest, rfl⟩ := map_ok h
      rw [List.mem_cons, ih hrest]
      simp only [List.mem_cons, exists_eq_or_imp, hfirst, Option.some.injEq]
      exact or_congr_left eq_comm

theorem exists_resolveAll {fs : FileSystem} {found : List (List Text)}
    (h : ∀ p ∈ found, (fs.resolve? (Path.absolute p)).isSome = true) :
    ∃ real, resolveAll fs found = .ok real := by
  induction found with
  | nil => exact ⟨[], rfl⟩
  | cons first found ih =>
    obtain ⟨hfirst, hrest⟩ := List.forall_mem_cons.mp h
    obtain ⟨parts, hparts⟩ := Option.isSome_iff_exists.mp hfirst
    obtain ⟨rest, hrest⟩ := ih hrest
    exact ⟨parts :: rest, by rw [resolveAll, hparts, hrest]; rfl⟩

end Discovery
end CommentedCode
