import CommentedCode.Proofs.Ignore.Reading
/-!
# Appended patterns

A path that is ignored stays ignored when patterns that do not negate are put behind the others,
also where a match with the mark of a directory is overruled by one without.
-/
namespace CommentedCode.Ignore

namespace Rules

private theorem hits_append (rules more : Rules) (path : Text) :
    hits (rules ++ more) path = hits more path ++ hits rules path := by
  rw [hits, List.reverse_append, List.filterMap_append]
  rfl

private theorem mem_of_mem_hits {rules : Rules} {path : Text} {hit : Pattern × Bool}
    (h : hit ∈ hits rules path) : hit.1 ∈ rules := by
  obtain ⟨p, hp, hhit⟩ := List.mem_filterMap.mp h
  obtain ⟨marked, -, rfl⟩ := Option.map_eq_some_iff.mp hhit
  exact List.mem_reverse.mp hp

private theorem ignores_append {rules more : Rules} (hmore : ∀ p ∈ more, p.ignores = true)
    {path : Text} (h : rules.ignores path = true) : (rules ++ more).ignores path = true := by
  have hlater : ∀ hit ∈ hits more path, hit.1.ignores = true :=
    fun hit hhit => hmore hit.1 (mem_of_mem_hits hhit)
  simp only [ignores, hits_append, List.find?_append, List.head?_append] at h ⊢
  cases hfound : (hits more path).find? (!·.2) with
  | some hit => exact hlater hit (List.mem_of_find?_eq_some hfound)
  | none =>
    rw [Option.none_or]
    cases hbefore : (hits rules path).find? (!·.2) with
    | some hit =>
      -- A match without a mark among the rules in front decides as it did before.
      rw [hbefore] at h
      exact h
    | none =>
      rw [hbefore, Option.none_or] at h
      rw [Option.none_or]
      cases hhits : hits more path with
      | nil => exact h
      | cons hit rest => exact hlater hit (hhits ▸ List.mem_cons_self)

private theorem patternLines_append (lines more : List Text) :
    patternLines (lines ++ more) = patternLines lines ++ patternLines more := by
  rw [patternLines, List.map_append, List.filter_append]
  rfl

private theorem readAll_append_ok {lines more : List Text} {all : Rules} :
    readAll (lines ++ more) = .ok all ↔ ∃ rules later, readAll lines = .ok rules ∧
      readAll more = .ok later ∧ all = rules ++ later := by
  induction lines generalizing all with
  | nil =>
    constructor
    · intro h
      exact ⟨[], all, rfl, h, rfl⟩
    · rintro ⟨_, later, hrules, hlater, rfl⟩
      obtain rfl := Except.ok.inj hrules
      exact hlater
  | cons line lines ih =>
    rw [List.cons_append]
    simp only [readAll_cons_ok, ih]
    constructor
    · rintro ⟨first, _, hfirst, ⟨rules, later, hrules, hlater, rfl⟩, rfl⟩
      exact ⟨_, later, ⟨first, rules, hfirst, hrules, rfl⟩, hlater,
        (List.append_assoc _ _ _).symm⟩
    · rintro ⟨_, later, ⟨first, rules, hfirst, hrules, rfl⟩, hlater, rfl⟩
      exact ⟨first, _, hfirst, ⟨rules, later, hrules, hlater, rfl⟩, List.append_assoc _ _ _⟩

private theorem ignores_append_of_readAll {lines : List Text} {rules later : Rules}
    (hlines : ∀ line ∈ lines, line.head? ≠ some '!') (hlater : readAll lines = .ok later)
    {path : Text} (h : rules.ignores path = true) : (rules ++ later).ignores path = true := by
  refine ignores_append (fun p hp => ?_) h
  obtain ⟨line, hline, hread⟩ := mem_readAll hlater hp
  exact (Pattern.read_ok (hlines line hline) hread).1

private theorem ofLines?_ok {lines : List Text} {found : Option Rules}
    (h : ofLines? lines = .ok found) : ∃ rules, readAll (patternLines lines) = .ok rules ∧
      ∀ path, found.toList.any (·.ignores path) = rules.ignores path := by
  rw [ofLines?] at h
  split at h
  · rename_i hnone
    obtain rfl := Except.ok.inj h
    exact ⟨[], by rw [hnone]; rfl, fun path => rfl⟩
  · obtain ⟨rules, hrules, rfl⟩ := map_ok h
    exact ⟨rules, hrules, fun path => by simp⟩

private theorem exists_ofLines? {lines : List Text} {rules : Rules}
    (h : readAll (patternLines lines) = .ok rules) : ∃ found, ofLines? lines = .ok found := by
  rw [ofLines?]
  split
  · exact ⟨none, rfl⟩
  · exact ⟨some rules, by rw [h]; rfl⟩

/-- Where lines that do not negate follow, the lines in front can be read as well, and what they
ignore is ignored. -/
theorem ofLines?_append_ok {lines more : List Text} {found : Option Rules}
    (hmore : ∀ line ∈ more, (Text.trim line).head? ≠ some '!')
    (h : ofLines? (lines ++ more) = .ok found) : ∃ before, ofLines? lines = .ok before ∧
      ∀ path, before.toList.any (·.ignores path) = true →
        found.toList.any (·.ignores path) = true := by
  obtain ⟨all, hall, hfound⟩ := ofLines?_ok h
  rw [patternLines_append] at hall
  obtain ⟨rules, later, hrules, hlater, rfl⟩ := readAll_append_ok.mp hall
  obtain ⟨before, hbefore⟩ := exists_ofLines? hrules
  refine ⟨before, hbefore, fun path hpath => ?_⟩
  obtain ⟨same, hsame, hignores⟩ := ofLines?_ok hbefore
  obtain rfl := Except.ok.inj (hsame.symm.trans hrules)
  rw [hfound]
  rw [hignores] at hpath
  refine ignores_append_of_readAll (fun line hline => ?_) hlater hpath
  obtain ⟨written, hwritten, rfl⟩ := List.mem_map.mp (List.mem_filter.mp hline).1
  exact hmore written hwritten

end Rules
end CommentedCode.Ignore
