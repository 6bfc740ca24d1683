import CommentedCode.Text.Lines
/-!
# Lines without breaks

The characters that break a text into lines stand in none of them.
-/
namespace CommentedCode.Text

private theorem not_mem_of_mem_consLine {b c : Char} {lines : List Text} (hb : b ≠ c)
    (h : ∀ line ∈ lines, b ∉ line) : ∀ line ∈ consLine c lines, b ∉ line := by
  cases lines with
  | nil => simp [consLine, hb]
  | cons first rest =>
    intro line hline
    rcases List.mem_cons.mp hline with rfl | hline
    · simp [hb, h first (by simp)]
    · exact h line (by simp [hline])

private theorem not_mem_of_mem_breakLines {b : Char} (hb : b = '\r' ∨ b = '\n') (cs : Text) :
    ∀ line ∈ breakLines cs, b ∉ line := by
  fun_induction breakLines cs with
  | case1 => simp
  | case2 cs ih => simpa using ih
  | case3 c cs _ _ ih => simpa using ih
  | case4 c cs _ hc ih =>
    refine not_mem_of_mem_consLine ?_ ih
    rintro rfl
    exact hc hb

theorem not_mem_of_mem_splitLines {b : Char} (hb : b = '\r' ∨ b = '\n') {cs line : Text}
    (h : line ∈ splitLines cs) : b ∉ line := by
  cases cs with
  | nil => simp [splitLines] at h
  | cons c cs => exact not_mem_of_mem_breakLines hb (c :: cs) line h

end CommentedCode.Text
