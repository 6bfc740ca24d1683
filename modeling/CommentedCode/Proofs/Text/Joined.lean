import CommentedCode.Proofs.Text.Unified
/-!
# Lines that are joined

Joining lines with line feeds and splitting the result gives the lines back.  Only a single empty
line is lost, since an empty text has no lines; and no text has that line alone.
-/
namespace CommentedCode.Text

/-- No character of the text breaks it. -/
def IsLine (cs : Text) : Prop :=
  '\r' ∉ cs ∧ '\n' ∉ cs

theorem isLine_of_mem_splitLines {cs line : Text} (h : line ∈ splitLines cs) : IsLine line :=
  ⟨not_mem_of_mem_splitLines (.inl rfl) h, not_mem_of_mem_splitLines (.inr rfl) h⟩

theorem breakLines_line_alone {line : Text} (h : IsLine line) : breakLines line = [line] := by
  induction line with
  | nil => rfl
  | cons c line ih =>
    obtain ⟨hr, hn⟩ := h
    rw [List.mem_cons, not_or] at hr hn
    rw [breakLines_cons (Ne.symm hr.1) (Ne.symm hn.1), ih ⟨hr.2, hn.2⟩]
    rfl

private theorem breakLines_join {lines : List Text} (hne : lines ≠ [])
    (h : ∀ line ∈ lines, IsLine line) : breakLines (join ['\n'] lines) = lines := by
  induction lines with
  | nil => exact absurd rfl hne
  | cons line lines ih =>
    rw [List.forall_mem_cons] at h
    cases lines with
    | nil =>
      rw [join_singleton]
      exact breakLines_line_alone h.1
    | cons next lines =>
      rw [join_cons _ _ (List.cons_ne_nil next lines), List.singleton_append,
        breakLines_append_line h.1.1, breakLines_line_alone h.1, ih (List.cons_ne_nil _ _) h.2]
      rfl

theorem splitLines_join {lines : List Text} (hne : lines ≠ [[]])
    (h : ∀ line ∈ lines, IsLine line) : splitLines (join ['\n'] lines) = lines := by
  by_cases hnil : lines = []
  · rw [hnil]
    rfl
  · have hlines := breakLines_join hnil h
    have htext : join ['\n'] lines ≠ [] := by
      intro hempty
      rw [hempty] at hlines
      exact hne hlines.symm
    rw [splitLines_of_ne_nil htext, hlines]

private theorem eq_nil_of_breakLines {cs : Text} (h : breakLines cs = [[]]) : cs = [] := by
  fun_cases breakLines cs with
  | case1 => rfl
  | case2 cs =>
    rw [breakLines] at h
    exact absurd (List.cons.inj h).2 (breakLines_ne_nil cs)
  | case3 c cs hcrlf hc =>
    rw [breakLines, if_pos hc] at h
    · exact absurd (List.cons.inj h).2 (breakLines_ne_nil cs)
    · exact hcrlf
  | case4 c cs hcrlf hc =>
    rw [breakLines, if_neg hc] at h
    · cases hlines : breakLines cs <;> rw [hlines] at h <;> cases h
    · exact hcrlf

theorem splitLines_ne_empty_line (cs : Text) : splitLines cs ≠ [[]] := by
  cases cs with
  | nil => exact nofun
  | cons c cs =>
    intro h
    exact List.cons_ne_nil c cs (eq_nil_of_breakLines h)

end CommentedCode.Text
