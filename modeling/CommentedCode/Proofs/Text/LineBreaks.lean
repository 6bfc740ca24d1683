import CommentedCode.Proofs.Text.Lines
import Mathlib.Data.List.Infix
/-!
# Texts with other line breaks

A text without carriage returns may have its line feeds written as another line break.  Its lines
stay what they are, and unifying the breaks gives the text back.
-/
namespace CommentedCode.Text

/-- A text with its line feeds written as `lineBreak`. -/
def withBreaks (lineBreak cs : Text) : Text :=
  cs.flatMap fun c => if c = '\n' then lineBreak else [c]

/-- The three line breaks. -/
def lineBreaks : List Text :=
  [['\n'], ['\r', '\n'], ['\r']]

/-- A text with both characters for every line break. -/
def crlf (cs : Text) : Text :=
  withBreaks ['\r', '\n'] cs

section

variable (lineBreak : Text) {c : Char} {cs : Text}

private theorem withBreaks_cons_line : withBreaks lineBreak ('\n' :: cs) =
    lineBreak ++ withBreaks lineBreak cs := rfl

private theorem withBreaks_cons (hc : c ≠ '\n') :
    withBreaks lineBreak (c :: cs) = c :: withBreaks lineBreak cs := by
  rw [withBreaks, List.flatMap_cons, if_neg hc]
  rfl

private theorem withBreaks_append (as bs : Text) :
    withBreaks lineBreak (as ++ bs) = withBreaks lineBreak as ++ withBreaks lineBreak bs :=
  List.flatMap_append

theorem withBreaks_of_not_mem (h : '\n' ∉ cs) : withBreaks lineBreak cs = cs := by
  induction cs with
  | nil => rfl
  | cons c cs ih =>
    rw [List.mem_cons, not_or] at h
    rw [withBreaks_cons lineBreak (Ne.symm h.1), ih h.2]

end

theorem crlf_cons {c : Char} (hc : c ≠ '\n') (cs : Text) : crlf (c :: cs) = c :: crlf cs :=
  withBreaks_cons _ hc

theorem crlf_cons_line (cs : Text) : crlf ('\n' :: cs) = '\r' :: '\n' :: crlf cs := rfl

theorem crlf_append (as bs : Text) : crlf (as ++ bs) = crlf as ++ crlf bs :=
  withBreaks_append _ as bs

theorem count_crlf (cs : Text) : List.count '\n' (crlf cs) = List.count '\n' cs := by
  induction cs with
  | nil => rfl
  | cons c cs ih =>
    by_cases hc : c = '\n'
    · rw [hc, crlf_cons_line, List.count_cons_of_ne (by decide), List.count_cons_self,
        List.count_cons_self, ih]
    · rw [crlf_cons hc, List.count_cons_of_ne hc, List.count_cons_of_ne hc, ih]

theorem prefix_of_prefix_crlf {lead cs : Text} (hr : '\r' ∉ lead) (h : lead <+: crlf cs) :
    lead <+: cs := by
  induction lead generalizing cs with
  | nil => exact List.nil_prefix
  | cons l lead ih =>
    rw [List.mem_cons, not_or] at hr
    cases cs with
    | nil => exact absurd h (by simp [crlf, withBreaks])
    | cons c cs =>
      by_cases hc : c = '\n'
      · rw [hc, crlf_cons_line, List.cons_prefix_cons] at h
        exact absurd h.1.symm hr.1
      · rw [crlf_cons hc, List.cons_prefix_cons] at h
        exact List.cons_prefix_cons.mpr ⟨h.1, ih hr.2 h.2⟩

private theorem eq_nil_of_starts {c : Char} {lead cs : Text} (hc : c ∉ lead)
    (h : lead <+: c :: cs) : lead = [] := by
  cases lead with
  | nil => rfl
  | cons l lead =>
    obtain ⟨rfl, -⟩ := List.cons_prefix_cons.mp h
    simp at hc

/-- What holds no line break and stands in the text with other breaks stands in the text. -/
theorem infix_of_infix_crlf {part cs : Text} (hr : '\r' ∉ part) (hn : '\n' ∉ part)
    (h : part <:+: crlf cs) : part <:+: cs := by
  induction cs with
  | nil => exact h
  | cons c cs ih =>
    by_cases hc : c = '\n'
    · subst hc
      rw [crlf_cons_line, List.infix_cons_iff, List.infix_cons_iff] at h
      rcases h with hfront | hfront | h
      · rw [eq_nil_of_starts hr hfront]
        exact List.nil_infix
      · rw [eq_nil_of_starts hn hfront]
        exact List.nil_infix
      · exact (ih h).trans (List.suffix_cons _ cs).isInfix
    · rw [crlf_cons hc, List.infix_cons_iff] at h
      rcases h with hfront | h
      · rw [← crlf_cons hc] at hfront
        exact (prefix_of_prefix_crlf hr hfront).isInfix
      · exact (ih h).trans (List.suffix_cons c cs).isInfix

theorem splitLines_of_ne_nil {cs : Text} (h : cs ≠ []) : splitLines cs = breakLines cs := by
  cases cs with
  | nil => exact absurd rfl h
  | cons c cs => rfl

theorem breakLines_ne_nil (cs : Text) : breakLines cs ≠ [] := by
  fun_cases breakLines cs with
  | case4 c cs _ hc => cases breakLines cs <;> exact nofun
  | _ => simp

theorem consLine_append {c : Char} {lines : List Text} (h : lines ≠ [])
    (more : List Text) : consLine c (lines ++ more) = consLine c lines ++ more := by
  cases lines with
  | nil => exact absurd rfl h
  | cons line lines => rfl

theorem breakLines_cons {c : Char} (hr : c ≠ '\r') (hn : c ≠ '\n') (cs : Text) :
    breakLines (c :: cs) = consLine c (breakLines cs) := by
  rw [breakLines, if_neg (by simp [hr, hn])]
  exact fun _ h => absurd h hr

theorem breakLines_crlf {cs : Text} (h : '\r' ∉ cs) : breakLines (crlf cs) = breakLines cs := by
  induction cs with
  | nil => rfl
  | cons c cs ih =>
    rw [List.mem_cons, not_or] at h
    by_cases hc : c = '\n'
    · subst hc
      rw [crlf_cons_line, breakLines, ih h.2]
      rfl
    · rw [crlf_cons hc, breakLines_cons (Ne.symm h.1) hc, breakLines_cons (Ne.symm h.1) hc, ih h.2]

theorem breakLines_crlf_append {cs : Text} (h : '\r' ∉ cs) :
    breakLines (crlf cs ++ ['\r']) = breakLines cs ++ [[]] := by
  induction cs with
  | nil => rfl
  | cons c cs ih =>
    rw [List.mem_cons, not_or] at h
    by_cases hc : c = '\n'
    · subst hc
      rw [crlf_cons_line, List.cons_append, List.cons_append, breakLines, ih h.2]
      rfl
    · rw [crlf_cons hc, List.cons_append, breakLines_cons (Ne.symm h.1) hc,
        breakLines_cons (Ne.symm h.1) hc, ih h.2, consLine_append (breakLines_ne_nil cs)]

theorem unifyBreaks_cons {c : Char} {cs : Text} (h : c = '\r' → cs.head? ≠ some '\n') :
    unifyBreaks (c :: cs) = (if c = '\r' then '\n' else c) :: unifyBreaks cs := by
  rw [unifyBreaks]
  rintro rest hc rfl
  exact h hc rfl

/-- A line break becomes a line feed where the text behind it does not go on with the break. -/
theorem unifyBreaks_lineBreak {lineBreak cs : Text} (hb : lineBreak ∈ lineBreaks)
    (h : lineBreak = ['\r'] → cs.head? ≠ some '\n') :
    unifyBreaks (lineBreak ++ cs) = '\n' :: unifyBreaks cs := by
  simp only [lineBreaks, List.mem_cons, List.not_mem_nil, or_false] at hb
  rcases hb with rfl | rfl | rfl
  · exact unifyBreaks_cons nofun
  · rfl
  · exact unifyBreaks_cons fun _ => h rfl

private theorem not_mem_withBreaks (cs : Text) : '\n' ∉ withBreaks ['\r'] cs := by
  rw [withBreaks, List.mem_flatMap]
  rintro ⟨c, -, h⟩
  split at h
  · simp at h
  · rename_i hc
    exact hc (List.mem_singleton.mp h).symm

/-- Unifying the breaks of a text that is written with one of the three gives the text back. -/
theorem unifyBreaks_withBreaks {lineBreak cs : Text} (hb : lineBreak ∈ lineBreaks)
    (h : '\r' ∉ cs) : unifyBreaks (withBreaks lineBreak cs) = cs := by
  induction cs with
  | nil => rfl
  | cons c cs ih =>
    rw [List.mem_cons, not_or] at h
    by_cases hc : c = '\n'
    · have hbehind : lineBreak = ['\r'] → (withBreaks lineBreak cs).head? ≠ some '\n' := by
        rintro rfl hhead
        exact not_mem_withBreaks cs (List.mem_of_head? hhead)
      rw [hc, withBreaks_cons_line, unifyBreaks_lineBreak hb hbehind, ih h.2]
    · rw [withBreaks_cons _ hc, unifyBreaks_cons fun hr => absurd hr.symm h.1,
        if_neg (Ne.symm h.1), ih h.2]

end CommentedCode.Text
