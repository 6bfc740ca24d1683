import CommentedCode.Proofs.Text.LineBreaks
/-!
# Texts with unified line breaks

Unifying the line breaks of a text replaces them, the ones of two characters first, and does not
change its lines.  Line feeds at the end of a text add empty lines and nothing else.
-/
namespace CommentedCode.Text

/-- First the line breaks of two characters become line feeds, then the carriage returns that are
left. -/
theorem unifyBreaks_eq_replaceAll (cs : Text) : unifyBreaks cs =
    replaceAll ['\r'] ['\n'] (replaceAll ['\r', '\n'] ['\n'] cs) := by
  fun_induction unifyBreaks cs with
  | case1 => rfl
  | case2 cs ih =>
    have hpair : replaceAll ['\r', '\n'] ['\n'] ('\r' :: '\n' :: cs) =
        '\n' :: replaceAll ['\r', '\n'] ['\n'] cs := replaceAll_append _ (by simp) cs
    rw [hpair, replaceAll_cons_of_not _ (by simp [startsWith, after?]), ih]
  | case3 c cs hcrlf ih =>
    have hpair : ¬startsWith (c :: cs) ['\r', '\n'] = true := by
      rw [startsWith_iff]
      rintro ⟨rest, hrest⟩
      obtain ⟨hc, hcs⟩ := List.cons.inj hrest
      exact hcrlf rest hc hcs
    rw [replaceAll_cons_of_not _ hpair, ih]
    split
    · rename_i hc
      rw [hc]
      exact (replaceAll_append ['\n'] (List.cons_ne_nil '\r' []) _).symm
    · rename_i hc
      rw [replaceAll_cons_of_not _ (by simp [startsWith, after?, Ne.symm hc])]

private theorem breakLines_line (cs : Text) : breakLines ('\n' :: cs) = [] :: breakLines cs := rfl

theorem not_mem_unifyBreaks (cs : Text) : '\r' ∉ unifyBreaks cs := by
  fun_induction unifyBreaks cs with
  | case1 => exact List.not_mem_nil
  | case2 cs ih => simpa using ih
  | case3 c cs _ ih =>
    rw [List.mem_cons, not_or]
    refine ⟨?_, ih⟩
    split
    · decide
    · exact Ne.symm ‹¬c = '\r'›

theorem breakLines_unifyBreaks (cs : Text) : breakLines (unifyBreaks cs) = breakLines cs := by
  fun_induction unifyBreaks cs with
  | case1 => rfl
  | case2 cs ih => rw [breakLines_line, breakLines, ih]
  | case3 c cs hcrlf ih =>
    split
    · rename_i hc
      subst hc
      rw [breakLines_line, ih, breakLines, if_pos (.inl rfl)]
      exact hcrlf
    · rename_i hr
      by_cases hn : c = '\n'
      · rw [hn, breakLines_line, breakLines_line, ih]
      · rw [breakLines_cons hr hn, breakLines_cons hr hn, ih]

/-- The lines do not depend on how the breaks between them are written. -/
theorem splitLines_unifyBreaks (cs : Text) : splitLines (unifyBreaks cs) = splitLines cs := by
  by_cases h : cs = []
  · rw [h]
    rfl
  · have hne : unifyBreaks cs ≠ [] := by
      fun_cases unifyBreaks cs with
      | case1 => exact h
      | case2 => exact List.cons_ne_nil _ _
      | case3 => exact List.cons_ne_nil _ _
    rw [splitLines_of_ne_nil hne, splitLines_of_ne_nil h, breakLines_unifyBreaks]

theorem breakLines_append_line {as : Text} (h : '\r' ∉ as) (bs : Text) :
    breakLines (as ++ '\n' :: bs) = breakLines as ++ breakLines bs := by
  induction as with
  | nil => rfl
  | cons c as ih =>
    rw [List.mem_cons, not_or] at h
    rw [List.cons_append]
    by_cases hn : c = '\n'
    · rw [hn, breakLines_line, breakLines_line, ih h.2, List.cons_append]
    · rw [breakLines_cons (Ne.symm h.1) hn, breakLines_cons (Ne.symm h.1) hn, ih h.2,
        consLine_append (breakLines_ne_nil as)]

private theorem breakLines_replicate (n : Nat) :
    breakLines (List.replicate n '\n') = List.replicate (n + 1) [] := by
  induction n with
  | zero => rfl
  | succ n ih => rw [List.replicate_succ, breakLines_line, ih, List.replicate_succ (n := n + 1)]

theorem splitLines_append_replicate {as : Text} (h : '\r' ∉ as) (n : Nat) :
    ∃ m, splitLines (as ++ List.replicate n '\n') = splitLines as ++ List.replicate m [] := by
  cases n with
  | zero => exact ⟨0, by simp⟩
  | succ n =>
    by_cases has : as = []
    · subst has
      refine ⟨n + 2, ?_⟩
      rw [List.nil_append, splitLines_of_ne_nil (by simp), breakLines_replicate]
      rfl
    · refine ⟨n + 1, ?_⟩
      rw [splitLines_of_ne_nil (by simp), splitLines_of_ne_nil has, List.replicate_succ,
        breakLines_append_line h, breakLines_replicate]

theorem dropLastWhile_append (p : Char → Bool) (cs : Text) :
    dropLastWhile p cs ++ (cs.reverse.takeWhile p).reverse = cs := by
  rw [dropLastWhile, ← List.reverse_append, List.takeWhile_append_dropWhile, List.reverse_reverse]

end CommentedCode.Text
