import CommentedCode.Proofs.Text.Rows
/-!
# Splitting at line breaks

Splitting loses the spelling of the breaks and nothing else: lines that are joined give the text
back, with unified breaks.  A text that is cut at a break has the lines of the part before it and
then those of the part behind it.
-/
namespace CommentedCode.Text

/-- The breaks of two texts are unified on their own, unless a break goes on from one to the
other. -/
theorem unifyBreaks_append {as bs : Text}
    (h : as.getLast? = some '\r' → bs.head? ≠ some '\n') :
    unifyBreaks (as ++ bs) = unifyBreaks as ++ unifyBreaks bs := by
  -- The last character is still the last one when characters stand in front of it.
  have hbehind (front : Text) {rest : Text}
      (hwhole : (front ++ rest).getLast? = some '\r' → bs.head? ≠ some '\n')
      (hlast : rest.getLast? = some '\r') : bs.head? ≠ some '\n' := by
    apply hwhole
    rw [List.getLast?_append, hlast, Option.some_or]
  fun_induction unifyBreaks as with
  | case1 => rfl
  | case2 as ih =>
    rw [List.cons_append, List.cons_append, unifyBreaks, ih (hbehind ['\r', '\n'] h),
      List.cons_append]
  | case3 c as hcrlf ih =>
    have hcut : c = '\r' → (as ++ bs).head? ≠ some '\n' := by
      rintro rfl
      cases as with
      | nil => exact h rfl
      | cons next as =>
        intro hnext
        cases hnext
        exact hcrlf as rfl rfl
    rw [List.cons_append, unifyBreaks_cons hcut, ih (hbehind [c] h), List.cons_append]

private theorem join_breakLines {cs : Text} (h : '\r' ∉ cs) : join ['\n'] (breakLines cs) = cs := by
  obtain ⟨lines, last, hlines, hlast, rfl⟩ := exists_ended h
  rw [breakLines_ended hlines hlast, join_concat]
  rfl

private theorem join_splitLines (cs : Text) : join ['\n'] (splitLines cs) = unifyBreaks cs := by
  by_cases h : cs = []
  · rw [h]
    rfl
  · rw [splitLines_of_ne_nil h, ← breakLines_unifyBreaks, join_breakLines (not_mem_unifyBreaks cs)]

private theorem length_splitLines {cs : Text} (h : cs ≠ []) :
    (splitLines cs).length = List.count '\n' (unifyBreaks cs) + 1 := by
  rw [splitLines_of_ne_nil h, ← breakLines_unifyBreaks, length_breakLines (not_mem_unifyBreaks cs)]

private theorem splitLines_append_lineBreak {as bs lineBreak : Text} (hb : lineBreak ∈ lineBreaks)
    (has : as ≠ []) (hbs : bs ≠ []) (hlast : as.getLast? ≠ some '\r')
    (hfirst : bs.head? ≠ some '\n') :
    splitLines (as ++ (lineBreak ++ bs)) = splitLines as ++ splitLines bs := by
  have hne : as ++ (lineBreak ++ bs) ≠ [] := by simp [has]
  have hunified : unifyBreaks (as ++ (lineBreak ++ bs)) =
      unifyBreaks as ++ '\n' :: unifyBreaks bs := by
    rw [unifyBreaks_append fun h => absurd h hlast, unifyBreaks_lineBreak hb fun _ => hfirst]
  calc splitLines (as ++ (lineBreak ++ bs))
      = breakLines (unifyBreaks as ++ '\n' :: unifyBreaks bs) := by
        rw [splitLines_of_ne_nil hne, ← breakLines_unifyBreaks, hunified]
    _ = breakLines (unifyBreaks as) ++ breakLines (unifyBreaks bs) :=
        breakLines_append_line (not_mem_unifyBreaks as) _
    _ = splitLines as ++ splitLines bs := by
        rw [breakLines_unifyBreaks, breakLines_unifyBreaks, splitLines_of_ne_nil has,
          splitLines_of_ne_nil hbs]

/-- A text is split at its line breaks, however they are written, and nowhere else: its lines are
those of the text in which the breaks of two characters and then the carriage returns are replaced
by line feeds.  What stands before a break and what stands behind it are split on their own, if
the break is a whole one. -/
theorem splitLines_at_breaks (cs : Text) :
    unifyBreaks cs = replaceAll ['\r'] ['\n'] (replaceAll ['\r', '\n'] ['\n'] cs) ∧
    (∀ line ∈ splitLines cs, IsLine line) ∧
    (cs ≠ [] → join ['\n'] (splitLines cs) = unifyBreaks cs ∧
      (splitLines cs).length = List.count '\n' (unifyBreaks cs) + 1 ∧
      splitLines (unifyBreaks cs) = splitLines cs) ∧
    ∀ as bs, ∀ lineBreak ∈ lineBreaks, cs = as ++ (lineBreak ++ bs) → as ≠ [] → bs ≠ [] →
      as.getLast? ≠ some '\r' → bs.head? ≠ some '\n' →
      splitLines cs = splitLines as ++ splitLines bs := by
  refine ⟨unifyBreaks_eq_replaceAll cs, fun line hline => isLine_of_mem_splitLines hline, ?_, ?_⟩
  · intro hne
    exact ⟨join_splitLines cs, length_splitLines hne, splitLines_unifyBreaks cs⟩
  · rintro as bs lineBreak hb rfl has hbs hlast hfirst
    exact splitLines_append_lineBreak hb has hbs hlast hfirst

/-- Five breaks in three spellings, with a cut at the one in the middle. -/
theorem splitLines_at_breaks_mixed :
    let as := "a\r\nb\n".toList
    let bs := "\rc\r\n".toList
    let cs := as ++ (['\r'] ++ bs)
    cs ≠ [] ∧ ['\r'] ∈ lineBreaks ∧ as ≠ [] ∧ bs ≠ [] ∧ as.getLast? ≠ some '\r' ∧
      bs.head? ≠ some '\n' ∧ join ['\n'] (splitLines cs) = "a\nb\n\n\nc\n".toList ∧
      (splitLines cs).length = 6 ∧ splitLines cs = [['a'], ['b'], []] ++ [[], ['c'], []] := by
  intro as bs cs
  have hne : cs ≠ [] := by decide
  have hb : ['\r'] ∈ lineBreaks := by decide
  have has : as ≠ [] := by decide
  have hbs : bs ≠ [] := by decide
  have hlast : as.getLast? ≠ some '\r' := by decide
  have hfirst : bs.head? ≠ some '\n' := by decide
  obtain ⟨-, -, hjoined, hcut⟩ := splitLines_at_breaks cs
  obtain ⟨hjoin, hlength, -⟩ := hjoined hne
  have hlines := hcut as bs ['\r'] hb rfl has hbs hlast hfirst
  exact ⟨hne, hb, has, hbs, hlast, hfirst, hjoin, hlength, hlines⟩

end CommentedCode.Text
