import CommentedCode.Proofs.Classifier.Decision
/-!
# Empty lines at the end

A search goes on at an empty line unless that scores as code, so empty lines at the end of a comment
do not change the verdict.  What is found is one of the lines.
-/
namespace CommentedCode
namespace Scan

variable {α : Type} [LE α] [DecidableLE α] {o : Options α} {score : Text → α}

private theorem verdict_lines_append {later : List Text} (h : ∀ line ∈ later, ¬Stops o score line)
    (i : Nat) (before : List Text) :
    (lines o.threshold (Guard.isSkipLine o.skipSequence) score i (before ++ later)).verdict =
      (lines o.threshold (Guard.isSkipLine o.skipSequence) score i before).verdict := by
  induction before generalizing i with
  | nil =>
    have hrun := lines_append i later [] h
    rw [List.append_nil] at hrun
    rw [List.nil_append, hrun]
    rfl
  | cons line before ih =>
    rw [List.cons_append, lines, lines]
    split
    · rfl
    · split
      · rfl
      · exact ih (i + 1)

theorem verdict_text_of_empty_lines {cs ds : Text} {n : Nat}
    (hlines : Text.splitLines ds = Text.splitLines cs ++ List.replicate n [])
    (hscore : ¬o.threshold ≤ score []) : (text o score ds).verdict = (text o score cs).verdict := by
  have hopens : Guard.opensJavadoc (Text.splitLines cs ++ List.replicate n []) =
      Guard.opensJavadoc (Text.splitLines cs) := by
    cases Text.splitLines cs with
    | nil => cases n <;> rfl
    | cons first rest => rfl
  have hempty : ∀ line ∈ List.replicate n [], ¬Stops o score line := by
    intro line hline
    obtain rfl := List.eq_of_mem_replicate hline
    exact not_or.mpr ⟨Bool.false_ne_true, hscore⟩
  simp only [text, hlines, hopens]
  split
  · rfl
  · exact verdict_lines_append hempty 0 _

theorem lt_of_lineIndex_text {cs : Text} {i : Nat}
    (h : (text o score cs).verdict.lineIndex? = some i) : i < (Text.splitLines cs).length := by
  obtain ⟨-, line, hstop, -⟩ := lineIndex_text_iff.mp h
  exact hstop.split.2

end Scan
end CommentedCode
