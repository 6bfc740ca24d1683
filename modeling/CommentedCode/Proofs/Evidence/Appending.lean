import CommentedCode.Proofs.Evidence.Counts
import CommentedCode.Proofs.Evidence.Measure
/-!
# Scores of longer lines

Text in front of a line never lowers its score.  Text behind it does not either, unless it takes
away the terminator.
-/
namespace CommentedCode

open Evidence

/-- A part of a line has no larger measure, unless it has a terminator that the line hides. -/
theorem measure_le_of_part {α : Type} (A : Arithmetic α) {part line : Text}
    (h : part <:+: line) (ht : Measure.terminator part ≤ Measure.terminator line) :
    ∀ e ∈ standard A, e.measure part ≤ e.measure line := by
  obtain ⟨front, back, rfl⟩ := h
  have hsum {count : Text → Nat} (hcount : ∀ as bs, count as + count bs ≤ count (as ++ bs)) :
      count part ≤ count (front ++ part ++ back) := by
    have hfront := hcount front part
    have hback := hcount (front ++ part) back
    omega
  have hhump : Measure.camelCase part ≤ Measure.camelCase (front ++ part ++ back) :=
    Nat.le_trans (Measure.camelCaseBy_le_append _ front part).2
      (Measure.camelCaseBy_le_append _ (front ++ part) back).1
  simp only [standard, List.forall_mem_cons]
  exact ⟨ht, hsum Measure.logicalOperatorCount_append_le, hsum Measure.keywordCount_append_le,
    hsum Measure.controlFlowCount_append_le, hhump, List.forall_mem_nil _⟩

/-- The parts of a line have no more of any count together than the line, only the last part can
end it, and a hump in a part is one in the line.  So text in front of a line does not lower its
score, and text behind it does not while the line still ends with a terminator, whether scores are
rounded, exact or in double precision. -/
theorem scoreLine_append (as bs : Text) :
    Measure.logicalOperatorCount as + Measure.logicalOperatorCount bs ≤
        Measure.logicalOperatorCount (as ++ bs) ∧
      Measure.keywordCount as + Measure.keywordCount bs ≤ Measure.keywordCount (as ++ bs) ∧
      Measure.controlFlowCount as + Measure.controlFlowCount bs ≤
        Measure.controlFlowCount (as ++ bs) ∧
      Measure.camelCase as ≤ Measure.camelCase (as ++ bs) ∧
      Measure.camelCase bs ≤ Measure.camelCase (as ++ bs) ∧
      Measure.terminator bs ≤ Measure.terminator (as ++ bs) ∧
      (∀ {α : Type} {A : Arithmetic α} (R : Rounded A), (∀ e ∈ standard A, R.InUnit e.weight) →
        R.Le (score A bs) (score A (as ++ bs)) ∧
        (Measure.terminator as ≤ Measure.terminator (as ++ bs) →
          R.Le (score A as) (score A (as ++ bs)))) ∧
      scoreLine bs ≤ scoreLine (as ++ bs) ∧
      (Measure.terminator as ≤ Measure.terminator (as ++ bs) →
        scoreLine as ≤ scoreLine (as ++ bs)) := by
  obtain ⟨hleft, hright⟩ := Measure.camelCaseBy_le_append LetterCase.ofUnit as bs
  have hend := Measure.terminator_le_append as bs
  have hsuffix : bs <:+: as ++ bs := (List.suffix_append as bs).isInfix
  have hprefix : as <:+: as ++ bs := (List.prefix_append as bs).isInfix
  refine ⟨Measure.logicalOperatorCount_append_le as bs, Measure.keywordCount_append_le as bs,
    Measure.controlFlowCount_append_le as bs, hleft, hright, hend, ?_, ?_, ?_⟩
  · intro α A R hweights
    refine ⟨combined_le hweights (measure_le_of_part A hsuffix hend), ?_⟩
    intro ht
    exact combined_le hweights (measure_le_of_part A hprefix ht)
  · exact scoreLine_le (measure_le_of_part .double hsuffix hend)
  · intro ht
    exact scoreLine_le (measure_le_of_part .double hprefix ht)

/-- The sign that is alone and the first one of the two do not make a third occurrence with them. -/
theorem scoreLine_append_signs :
    let as := ['{', 'a', '+']
    let bs := ['+', '+', ' ', '}']
    ((∀ e ∈ standard .double, Rounded.double.InUnit e.weight) ∧
        Measure.terminator as ≤ Measure.terminator (as ++ bs)) ∧
      Measure.controlFlowCount as + Measure.controlFlowCount bs ≤
        Measure.controlFlowCount (as ++ bs) ∧
      Rounded.double.Le (score .double as) (score .double (as ++ bs)) ∧
      scoreLine bs ≤ scoreLine (as ++ bs) ∧ scoreLine as ≤ scoreLine (as ++ bs) := by
  intro as bs
  have hterminator : Measure.terminator as ≤ Measure.terminator (as ++ bs) := by decide
  obtain ⟨-, -, hcontrol, -, -, -, hrounded, hfront, hback⟩ := scoreLine_append as bs
  exact ⟨⟨inUnit_standard, hterminator⟩, hcontrol,
    (hrounded Rounded.double inUnit_standard).2 hterminator, hfront, hback hterminator⟩

end CommentedCode
