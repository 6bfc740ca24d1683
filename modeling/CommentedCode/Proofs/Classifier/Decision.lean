import CommentedCode.Classifier.Basic
/-!
# The decision of the classifier

A search ends at the first line that is a skip line or reaches the threshold.  That line decides
the verdict, and no line behind it is scored.  Nothing is asked of the order of scores.
-/
namespace CommentedCode
namespace Scan

section Search

variable {α : Type} [LE α] (o : Options α) (score : Text → α)

/-- A line at which a search ends. -/
def Stops (line : Text) : Prop :=
  Guard.isSkipLine o.skipSequence line = true ∨ o.threshold ≤ score line

/-- `line` stands at the least index at which a search ends. -/
structure FirstStop (lines : List Text) (i : Nat) (line : Text) : Prop where
  at_index : lines[i]? = some line
  stops : Stops o score line
  earlier : ∀ j < i, ∀ l, lines[j]? = some l → ¬Stops o score l

/-- Documentation comments are left alone, and the first line opens one. -/
def Exempt (lines : List Text) : Prop :=
  o.skipJavadocs = true ∧ ∃ line, lines[0]? = some line ∧ Guard.isJavadocOpener line = true

variable {o score}

theorem FirstStop.split {lines : List Text} {i : Nat} {line : Text}
    (h : FirstStop o score lines i line) :
    lines = lines.take i ++ line :: lines.drop (i + 1) ∧ i < lines.length := by
  obtain ⟨hi, hline⟩ := List.getElem?_eq_some_iff.mp h.at_index
  refine ⟨?_, hi⟩
  rw [← hline, List.getElem_cons_drop, List.take_append_drop]

theorem FirstStop.before {lines : List Text} {i : Nat} {line : Text}
    (h : FirstStop o score lines i line) : ∀ l ∈ lines.take i, ¬Stops o score l := by
  intro l hl
  obtain ⟨j, hj, rfl⟩ := List.mem_take_iff_getElem.mp hl
  exact h.earlier j (by omega) _ (List.getElem?_eq_getElem (by omega))

private theorem FirstStop.of_take {lines other : List Text} {i : Nat} {line : Text}
    (h : FirstStop o score lines i line) (ht : other.take (i + 1) = lines.take (i + 1)) :
    FirstStop o score other i line := by
  have hget (j : Nat) (hj : j < i + 1) : other[j]? = lines[j]? := by
    rw [← List.getElem?_take_of_lt hj, ht, List.getElem?_take_of_lt hj]
  refine ⟨(hget i (by omega)).trans h.at_index, h.stops, ?_⟩
  intro j hj l hl
  exact h.earlier j hj l ((hget j (by omega)).symm.trans hl)

/-- Either some line is the first at which a search ends, or there is none at all. -/
theorem firstStop_or_none (o : Options α) (score : Text → α) (lines : List Text) :
    (∃ i line, FirstStop o score lines i line) ∨ ∀ l ∈ lines, ¬Stops o score l := by
  induction lines with
  | nil => exact .inr (by simp)
  | cons first rest ih =>
    by_cases hs : Stops o score first
    · exact .inl ⟨0, first, rfl, hs, by simp⟩
    rcases ih with ⟨i, line, h⟩ | h
    · refine .inl ⟨i + 1, line, h.at_index, h.stops, ?_⟩
      intro j hj l hl
      cases j with
      | zero =>
        obtain rfl : first = l := by simpa using hl
        exact hs
      | succ j => exact h.earlier j (by omega) l (by simpa using hl)
    · refine .inr ?_
      intro l hl
      rcases List.mem_cons.mp hl with rfl | hl
      · exact hs
      · exact h l hl

private theorem opensJavadoc_iff (lines : List Text) :
    Guard.opensJavadoc lines = true ↔
      ∃ line, lines[0]? = some line ∧ Guard.isJavadocOpener line = true := by
  cases lines <;> simp [Guard.opensJavadoc]

end Search

section Run

variable {α : Type} [LE α] [DecidableLE α] {o : Options α} {score : Text → α}

/-- Lines at which a search goes on are scored and do not change the verdict. -/
theorem lines_append (i : Nat) (before rest : List Text) (hb : ∀ l ∈ before, ¬Stops o score l) :
    lines o.threshold (Guard.isSkipLine o.skipSequence) score i (before ++ rest) =
      let found := lines o.threshold (Guard.isSkipLine o.skipSequence) score
        (i + before.length) rest
      ⟨found.verdict, before ++ found.scored⟩ := by
  induction before generalizing i with
  | nil => rfl
  | cons line before ih =>
    have hline := hb line (by simp)
    simp only [Stops, not_or] at hline
    have ih := ih (i + 1) (fun l hl => hb l (by simp [hl]))
    rw [Nat.add_right_comm i 1, Nat.add_assoc i] at ih
    simp only [List.cons_append, lines, hline.1, hline.2, if_false, ih, List.length_cons]
    simp

private theorem lines_of_firstStop {all : List Text} {i : Nat} {line : Text}
    (h : FirstStop o score all i line) :
    lines o.threshold (Guard.isSkipLine o.skipSequence) score 0 all =
      let found := lines o.threshold (Guard.isSkipLine o.skipSequence) score i
        (line :: all.drop (i + 1))
      ⟨found.verdict, all.take i ++ found.scored⟩ := by
  obtain ⟨hsplit, hi⟩ := h.split
  have hrun := lines_append 0 _ (line :: all.drop (i + 1)) h.before
  rw [← hsplit, List.length_take, Nat.min_eq_left (Nat.le_of_lt hi), Nat.zero_add] at hrun
  exact hrun

private theorem text_of_exempt {cs : Text} (h : Exempt o (Text.splitLines cs)) :
    text o score cs = ⟨.javadoc, []⟩ := by
  simp [text, h.1, (opensJavadoc_iff _).mpr h.2]

private theorem text_of_not_exempt {cs : Text} (h : ¬Exempt o (Text.splitLines cs)) :
    text o score cs =
      lines o.threshold (Guard.isSkipLine o.skipSequence) score 0 (Text.splitLines cs) := by
  have hj : ¬(o.skipJavadocs = true ∧ Guard.opensJavadoc (Text.splitLines cs) = true) := by
    rw [opensJavadoc_iff]
    exact h
  simp only [text, Bool.and_eq_true, if_neg hj]

private theorem text_of_skip {cs line : Text} {i : Nat} (hx : ¬Exempt o (Text.splitLines cs))
    (h : FirstStop o score (Text.splitLines cs) i line)
    (hs : Guard.isSkipLine o.skipSequence line = true) :
    text o score cs = ⟨.skipped i, (Text.splitLines cs).take i⟩ := by
  rw [text_of_not_exempt hx, lines_of_firstStop h]
  simp [lines, hs]

theorem text_of_code {cs line : Text} {i : Nat} (hx : ¬Exempt o (Text.splitLines cs))
    (h : FirstStop o score (Text.splitLines cs) i line)
    (hs : Guard.isSkipLine o.skipSequence line = false) :
    text o score cs = ⟨.code i (score line), (Text.splitLines cs).take (i + 1)⟩ := by
  have hscore : o.threshold ≤ score line := by simpa [Stops, hs] using h.stops
  rw [text_of_not_exempt hx, lines_of_firstStop h, List.take_add_one, h.at_index]
  simp [lines, hs, hscore]

private theorem text_of_prose {cs : Text} (hx : ¬Exempt o (Text.splitLines cs))
    (h : ∀ l ∈ Text.splitLines cs, ¬Stops o score l) :
    text o score cs = ⟨.prose, Text.splitLines cs⟩ := by
  have hrun := lines_append 0 (Text.splitLines cs) [] h
  rw [List.append_nil] at hrun
  rw [text_of_not_exempt hx, hrun]
  simp [lines]

theorem lineIndex_text_iff {cs : Text} {i : Nat} :
    (text o score cs).verdict.lineIndex? = some i ↔
      ¬Exempt o (Text.splitLines cs) ∧ ∃ line, FirstStop o score (Text.splitLines cs) i line ∧
        Guard.isSkipLine o.skipSequence line = false := by
  constructor
  · intro hi
    by_cases hx : Exempt o (Text.splitLines cs)
    · simp [text_of_exempt hx, Verdict.lineIndex?] at hi
    refine ⟨hx, ?_⟩
    rcases firstStop_or_none o score (Text.splitLines cs) with ⟨k, line, h⟩ | h
    · cases hs : Guard.isSkipLine o.skipSequence line with
      | true => simp [text_of_skip hx h hs, Verdict.lineIndex?] at hi
      | false =>
        obtain rfl : k = i := by simpa [text_of_code hx h hs, Verdict.lineIndex?] using hi
        exact ⟨line, h, hs⟩
    · simp [text_of_prose hx h, Verdict.lineIndex?] at hi
  · intro ⟨hx, line, h, hs⟩
    simp [text_of_code hx h hs, Verdict.lineIndex?]

/-- The verdict and the scored lines depend only on the lines up to the first stop. -/
theorem text_congr {cs ds line : Text} {i : Nat}
    (h : FirstStop o score (Text.splitLines cs) i line)
    (ht : (Text.splitLines ds).take (i + 1) = (Text.splitLines cs).take (i + 1)) :
    text o score ds = text o score cs := by
  have h' := h.of_take ht
  have hx : Exempt o (Text.splitLines ds) ↔ Exempt o (Text.splitLines cs) := by
    have hfirst := congrArg (·[0]?) ht
    simp only [List.getElem?_take_of_lt (Nat.succ_pos i)] at hfirst
    simp only [Exempt, hfirst]
  by_cases hc : Exempt o (Text.splitLines cs)
  · rw [text_of_exempt hc, text_of_exempt (hx.mpr hc)]
  have hd := mt hx.mp hc
  cases hs : Guard.isSkipLine o.skipSequence line with
  | true =>
    rw [text_of_skip hc h hs, text_of_skip hd h' hs]
    have htake := congrArg (List.take i) ht
    simp only [List.take_take, Nat.min_eq_left (Nat.le_succ i)] at htake
    rw [htake]
  | false => rw [text_of_code hc h hs, text_of_code hd h' hs, ht]

end Run
end Scan

namespace Verdict

variable {α : Type} (v : Verdict α)

private theorem probability_eq_none_iff : v.probability? = none ↔ v.isCode = false := by
  cases v <;> simp [probability?, isCode]

private theorem lineIndex_eq_none_iff : v.lineIndex? = none ↔ v.isCode = false := by
  cases v <;> simp [lineIndex?, isCode]

theorem eq_code_of_lineIndex {v : Verdict α} {i : Nat} (h : v.lineIndex? = some i) :
    ∃ p, v = .code i p := by
  cases v with
  | code j p =>
    obtain rfl := Option.some.inj h
    exact ⟨p, rfl⟩
  | _ => simp [lineIndex?] at h

end Verdict

open Scan in
/-- The whole law of a classification: an exempt comment is no code and nothing is scored;
otherwise the first stop decides, and all lines up to it, but no skip line, are scored. -/
theorem classify_decision {α : Type} [LE α] [DecidableLE α] (o : Options α) (score : Text → α)
    (c : Comment) :
    let lines := Text.splitLines c.text
    let found := classify o score c
    let verdict := found.scan.verdict
    (Exempt o lines → verdict.isCode = false ∧ found.scan.scored = []) ∧
    (verdict.isCode = true ↔ ¬Exempt o lines ∧ ∃ i line, FirstStop o score lines i line ∧
      Guard.isSkipLine o.skipSequence line = false) ∧
    (∀ i line, ¬Exempt o lines → FirstStop o score lines i line →
      Guard.isSkipLine o.skipSequence line = false →
        verdict.lineIndex? = some i ∧ verdict.probability? = some (score line) ∧
        o.threshold ≤ score line ∧
        (∀ l ∈ lines.take i,
          Guard.isSkipLine o.skipSequence l = false ∧ ¬o.threshold ≤ score l) ∧
        found.scan.scored = lines.take (i + 1)) ∧
    (∀ i line, ¬Exempt o lines → FirstStop o score lines i line →
      Guard.isSkipLine o.skipSequence line = true →
        verdict.isCode = false ∧ found.scan.scored = lines.take i) ∧
    (¬Exempt o lines → (∀ i line, ¬FirstStop o score lines i line) →
      verdict.isCode = false ∧ found.scan.scored = lines) ∧
    found.comment.startLine = c.startLine ∧ found.comment.endLine = c.endLine ∧
    (verdict.probability? = none ↔ verdict.isCode = false) ∧
    (verdict.lineIndex? = none ↔ verdict.isCode = false) ∧
    (∀ i line, FirstStop o score lines i line → ∀ other : Comment,
      (Text.splitLines other.text).take (i + 1) = lines.take (i + 1) →
        (classify o score other).scan = found.scan) := by
  intro lines found verdict
  refine ⟨?_, ?_, ?_, ?_, ?_, rfl, rfl, verdict.probability_eq_none_iff,
    verdict.lineIndex_eq_none_iff, ?_⟩
  · intro hx
    have hrun : found.scan = ⟨.javadoc, []⟩ := text_of_exempt hx
    simp [verdict, hrun, Verdict.isCode]
  · have hcode : verdict.isCode = true ↔ ∃ i, verdict.lineIndex? = some i := by
      cases verdict <;> simp [Verdict.isCode, Verdict.lineIndex?]
    rw [hcode]
    constructor
    · intro ⟨i, hi⟩
      obtain ⟨hx, line, h, hs⟩ := lineIndex_text_iff.mp hi
      exact ⟨hx, i, line, h, hs⟩
    · intro ⟨hx, i, line, h, hs⟩
      exact ⟨i, lineIndex_text_iff.mpr ⟨hx, line, h, hs⟩⟩
  · intro i line hx h hs
    have hrun : found.scan = ⟨.code i (score line), lines.take (i + 1)⟩ := text_of_code hx h hs
    refine ⟨by simp [verdict, hrun, Verdict.lineIndex?],
      by simp [verdict, hrun, Verdict.probability?], by simpa [Stops, hs] using h.stops, ?_,
      by rw [hrun]⟩
    intro l hl
    simpa [Stops, not_or] using h.before l hl
  · intro i line hx h hs
    have hrun : found.scan = ⟨.skipped i, lines.take i⟩ := text_of_skip hx h hs
    simp [verdict, hrun, Verdict.isCode]
  · intro hx h
    have hnone := (firstStop_or_none o score lines).resolve_left (by simpa using h)
    have hrun : found.scan = ⟨.prose, lines⟩ := text_of_prose hx hnone
    simp [verdict, hrun, Verdict.isCode]
  · intro i line h other ht
    exact text_congr h ht

end CommentedCode
