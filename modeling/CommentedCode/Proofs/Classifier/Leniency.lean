import CommentedCode.Proofs.Classifier.Decision
import CommentedCode.Proofs.Classifier.SkipLine
import CommentedCode.Proofs.Text.Lines
import Mathlib.Order.Defs.Unbundled
/-!
# Lenient options

Options are lenient with respect to others if they ask for less, exempt less and skip less.  What
strict options find to be code, lenient ones find on the same line or before.
-/
namespace CommentedCode

structure Options.Lenient {α : Type} [LE α] (lenient strict : Options α) : Prop where
  threshold : lenient.threshold ≤ strict.threshold
  javadocs : lenient.skipJavadocs = true → strict.skipJavadocs = true
  sequence : strict.skipSequence <+: lenient.skipSequence

namespace Scan

variable {α : Type} [LE α] {a b : Options α} {score : Text → α}

private theorem Exempt.strict (h : a.Lenient b) {lines : List Text} (hx : Exempt a lines) :
    Exempt b lines :=
  ⟨h.javadocs hx.1, hx.2⟩

/-- The first stop under lenient options is no skip line, if that under strict ones is none. -/
theorem FirstStop.lenient [IsTrans α (· ≤ ·)] (h : a.Lenient b) {lines : List Text} {i : Nat}
    {line : Text} (hn : ∀ l ∈ lines, '\n' ∉ l) (hi : FirstStop b score lines i line)
    (hs : Guard.isSkipLine b.skipSequence line = false) :
    ∃ j ≤ i, ∃ l, FirstStop a score lines j l ∧ Guard.isSkipLine a.skipSequence l = false := by
  have hline : Stops a score line := by
    have hscore : b.threshold ≤ score line := by simpa [Stops, hs] using hi.stops
    exact .inr (trans_of (· ≤ ·) h.threshold hscore)
  rcases firstStop_or_none a score lines with ⟨j, l, hj⟩ | hnone
  · have hji : j ≤ i := by
      apply Nat.le_of_not_lt
      intro hlt
      exact hj.earlier i hlt line hi.at_index hline
    refine ⟨j, hji, l, hj, ?_⟩
    apply Bool.eq_false_iff.mpr
    intro hl
    have hskip : Guard.isSkipLine b.skipSequence l = true :=
      Guard.isSkipLine_of_prefix h.sequence (hn l (List.mem_of_getElem? hj.at_index)) hl
    rcases Nat.lt_or_eq_of_le hji with hlt | rfl
    · exact hi.earlier j hlt l hj.at_index (.inl hskip)
    · obtain rfl : l = line := Option.some.inj (hj.at_index.symm.trans hi.at_index)
      simp [hskip] at hs
  · exact absurd hline (hnone line (List.mem_of_getElem? hi.at_index))

theorem lineIndex_lenient [DecidableLE α] [IsTrans α (· ≤ ·)] (h : a.Lenient b) {cs : Text}
    {i : Nat} (hi : (text b score cs).verdict.lineIndex? = some i) :
    ∃ j ≤ i, (text a score cs).verdict.lineIndex? = some j := by
  obtain ⟨hx, line, hline, hs⟩ := lineIndex_text_iff.mp hi
  have hn : ∀ l ∈ Text.splitLines cs, '\n' ∉ l := by
    intro l hl
    exact Text.not_mem_of_mem_splitLines (.inr rfl) hl
  obtain ⟨j, hji, l, hj, hl⟩ := hline.lenient h hn hs
  exact ⟨j, hji, lineIndex_text_iff.mpr ⟨fun hxa => hx (hxa.strict h), l, hj, hl⟩⟩

end Scan
end CommentedCode
