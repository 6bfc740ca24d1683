import CommentedCode.Proofs.Text.Joined
/-!
# Rows of a text

A text without carriage returns is some lines with a line feed behind each, and a last line.  So it
has one line more than line feeds, and what stands behind `n` line feeds stands on the row with the
index `n`.
-/
namespace CommentedCode.Text

/-- Lines with a line feed behind each. -/
def ended (lines : List Text) : Text :=
  lines.flatMap (· ++ ['\n'])

private theorem ended_cons (line : Text) (lines : List Text) :
    ended (line :: lines) = line ++ '\n' :: ended lines := by
  rw [ended, List.flatMap_cons, List.append_assoc, List.singleton_append]
  rfl

private theorem ended_append (lines more : List Text) :
    ended (lines ++ more) = ended lines ++ ended more :=
  List.flatMap_append

private theorem count_ended {lines : List Text} (h : ∀ line ∈ lines, IsLine line) :
    List.count '\n' (ended lines) = lines.length := by
  induction lines with
  | nil => rfl
  | cons line lines ih =>
    rw [List.forall_mem_cons] at h
    rw [ended_cons, List.count_append, List.count_eq_zero.mpr h.1.2, List.count_cons_self, ih h.2,
      List.length_cons, Nat.zero_add]

private theorem breakLines_ended_append {lines : List Text} (h : ∀ line ∈ lines, IsLine line)
    (cs : Text) : breakLines (ended lines ++ cs) = lines ++ breakLines cs := by
  induction lines with
  | nil => rfl
  | cons line lines ih =>
    rw [List.forall_mem_cons] at h
    rw [ended_cons, List.append_assoc, List.cons_append, breakLines_append_line h.1.1,
      breakLines_line_alone h.1, ih h.2, List.singleton_append, List.cons_append]

private theorem breakLines_line_append {line cs first : Text} {rest : List Text} (h : IsLine line)
    (hcs : breakLines cs = first :: rest) : breakLines (line ++ cs) = (line ++ first) :: rest := by
  induction line with
  | nil => exact hcs
  | cons c line ih =>
    obtain ⟨hr, hn⟩ := h
    rw [List.mem_cons, not_or] at hr hn
    rw [List.cons_append, breakLines_cons (Ne.symm hr.1) (Ne.symm hn.1), ih ⟨hr.2, hn.2⟩, consLine,
      List.cons_append]

theorem exists_ended {cs : Text} (h : '\r' ∉ cs) :
    ∃ lines last, (∀ line ∈ lines, IsLine line) ∧ IsLine last ∧ cs = ended lines ++ last := by
  induction cs with
  | nil => exact ⟨[], [], nofun, ⟨List.not_mem_nil, List.not_mem_nil⟩, rfl⟩
  | cons c cs ih =>
    rw [List.mem_cons, not_or] at h
    obtain ⟨lines, last, hlines, hlast, rfl⟩ := ih h.2
    by_cases hn : c = '\n'
    · refine ⟨[] :: lines, last, ?_, hlast, ?_⟩
      · exact List.forall_mem_cons.mpr ⟨⟨List.not_mem_nil, List.not_mem_nil⟩, hlines⟩
      · rw [ended_cons, hn, List.nil_append, List.cons_append]
    · have hcons {line : Text} (hline : IsLine line) : IsLine (c :: line) := by
        simp only [IsLine, List.mem_cons, not_or]
        exact ⟨⟨h.1, hline.1⟩, ⟨Ne.symm hn, hline.2⟩⟩
      cases lines with
      | nil => exact ⟨[], c :: last, hlines, hcons hlast, rfl⟩
      | cons line lines =>
        rw [List.forall_mem_cons] at hlines
        refine ⟨(c :: line) :: lines, last, ?_, hlast, ?_⟩
        · exact List.forall_mem_cons.mpr ⟨hcons hlines.1, hlines.2⟩
        · rw [ended_cons, ended_cons, List.cons_append, List.cons_append]

theorem breakLines_ended {lines : List Text} {last : Text} (h : ∀ line ∈ lines, IsLine line)
    (hlast : IsLine last) : breakLines (ended lines ++ last) = lines ++ [last] := by
  rw [breakLines_ended_append h, breakLines_line_alone hlast]

private theorem count_ended_append {lines : List Text} {last : Text}
    (h : ∀ line ∈ lines, IsLine line) (hlast : IsLine last) :
    List.count '\n' (ended lines ++ last) = lines.length := by
  rw [List.count_append, count_ended h, List.count_eq_zero.mpr hlast.2, Nat.add_zero]

theorem length_breakLines {cs : Text} (h : '\r' ∉ cs) :
    (breakLines cs).length = List.count '\n' cs + 1 := by
  obtain ⟨lines, last, hlines, hlast, rfl⟩ := exists_ended h
  rw [breakLines_ended hlines hlast, count_ended_append hlines hlast, List.length_append,
    List.length_singleton]

private theorem prefix_of_breakLines {cs first : Text} {rest : List Text} (h : '\r' ∉ cs)
    (hcs : breakLines cs = first :: rest) : first <+: cs := by
  obtain ⟨lines, last, hlines, hlast, rfl⟩ := exists_ended h
  rw [breakLines_ended hlines hlast] at hcs
  cases lines with
  | nil =>
    cases hcs
    exact List.prefix_refl _
  | cons line lines =>
    cases hcs
    rw [ended_cons, List.append_assoc]
    exact List.prefix_append first _

/-- A line stands in its text behind as many line feeds as there are lines before it. -/
theorem exists_of_breakLines {cs line : Text} {i : Nat} (h : '\r' ∉ cs)
    (hline : (breakLines cs)[i]? = some line) :
    ∃ before behind, cs = before ++ (line ++ behind) ∧ List.count '\n' before = i := by
  obtain ⟨lines, last, hlines, hlast, rfl⟩ := exists_ended h
  rw [breakLines_ended hlines hlast, List.getElem?_append] at hline
  split at hline
  · rename_i hi
    have hsplit : lines = lines.take i ++ line :: lines.drop (i + 1) := by
      rw [← (List.getElem?_eq_some_iff.mp hline).2, List.getElem_cons_drop, List.take_append_drop]
    have htake : ∀ l ∈ lines.take i, IsLine l := fun l hl => hlines l (List.mem_of_mem_take hl)
    refine ⟨ended (lines.take i), '\n' :: ended (lines.drop (i + 1)) ++ last, ?_, ?_⟩
    · conv_lhs => rw [hsplit]
      rw [ended_append, ended_cons, List.append_assoc, List.append_assoc]
    · rw [count_ended htake, List.length_take, Nat.min_eq_left (Nat.le_of_lt hi)]
  · rename_i hi
    obtain ⟨hlt, hlast⟩ := List.getElem?_eq_some_iff.mp hline
    rw [List.length_singleton] at hlt
    obtain rfl : i = lines.length := by omega
    refine ⟨ended lines, [], ?_, count_ended hlines⟩
    rw [List.append_nil, ← hlast]
    simp

/-- A part of a line stands on the row that is told by the line feeds before it. -/
theorem exists_row {before line behind : Text} (hbefore : '\r' ∉ before) (hline : IsLine line)
    (hbehind : '\r' ∉ behind) :
    ∃ lead trail, lead <:+ before ∧ trail <+: behind ∧
      (breakLines (before ++ (line ++ behind)))[List.count '\n' before]? =
        some (lead ++ (line ++ trail)) := by
  obtain ⟨lines, lead, hlines, hlead, rfl⟩ := exists_ended hbefore
  cases htrail : breakLines behind with
  | nil => exact absurd htrail (breakLines_ne_nil behind)
  | cons trail rest =>
    refine ⟨lead, trail, List.suffix_append _ lead, prefix_of_breakLines hbehind htrail, ?_⟩
    have hrow : breakLines (lead ++ (line ++ behind)) = (lead ++ (line ++ trail)) :: rest :=
      breakLines_line_append hlead (breakLines_line_append hline htrail)
    rw [List.append_assoc, breakLines_ended_append hlines, hrow, count_ended_append hlines hlead,
      List.getElem?_append_right (Nat.le_refl _), Nat.sub_self, List.getElem?_cons_zero]

end CommentedCode.Text
