import CommentedCode.Proofs.Classifier.Decision
import CommentedCode.Proofs.Evidence.Measure
import CommentedCode.Proofs.Text.Joined
import Mathlib.Data.List.Forall2
/-!
# Indented lines

Spaces and tabs in front of the lines of a comment do not change the verdict.  Those at the end of
lines do not either, unless the skip sequence has one itself.
-/
namespace CommentedCode

namespace Guard

/-- Spaces and tabs in front of a line. -/
def IndentedInFront (line wide : Text) : Prop :=
  ∃ front, IsIndentation front ∧ wide = front ++ line

/-- Spaces and tabs in front of a line and behind it. -/
def Indented (line wide : Text) : Prop :=
  ∃ front back, IsIndentation front ∧ IsIndentation back ∧ wide = front ++ line ++ back

private theorem isIndentation_nil : IsIndentation [] :=
  fun _ h => absurd h List.not_mem_nil

private theorem IndentedInFront.indented {line wide : Text} (h : IndentedInFront line wide) :
    Indented line wide := by
  obtain ⟨front, hf, rfl⟩ := h
  exact ⟨front, [], hf, isIndentation_nil, (List.append_nil _).symm⟩

private theorem IsIndentation.isLine {cs : Text} (h : IsIndentation cs) : Text.IsLine cs :=
  ⟨fun hr => Bool.false_ne_true (h _ hr), fun hn => Bool.false_ne_true (h _ hn)⟩

private theorem Indented.isLine {line wide : Text} (h : Indented line wide)
    (hl : Text.IsLine line) : Text.IsLine wide := by
  obtain ⟨front, back, hf, hb, rfl⟩ := h
  have hmem {c : Char} (h1 : c ∉ front) (h2 : c ∉ line) (h3 : c ∉ back) :
      c ∉ front ++ line ++ back := by
    simp [h1, h2, h3]
  exact ⟨hmem hf.isLine.1 hl.1 hb.isLine.1, hmem hf.isLine.2 hl.2 hb.isLine.2⟩

/-! ### Guards -/

private theorem isSkipLine_behind {front : Text} (hf : IsIndentation front) (sequence line : Text) :
    isSkipLine sequence (front ++ line) = isSkipLine sequence line := by
  rw [isSkipLine, isSkipLine, List.dropWhile_append_of_pos hf]

private theorem isJavadocOpener_behind {front : Text} (hf : IsIndentation front) (line : Text) :
    isJavadocOpener (front ++ line) = isJavadocOpener line := by
  rw [isJavadocOpener, isJavadocOpener, List.dropWhile_append_of_pos hf]

/-- A part of a line without spaces and tabs ends before those at the end of the line. -/
theorem exists_rest_of_append {line back front solid rest : Text} (hb : IsIndentation back)
    (hne : solid ≠ []) (hsolid : ∀ c ∈ solid, Text.isIndent c = false)
    (h : line ++ back = front ++ solid ++ rest) :
    ∃ more, line = front ++ solid ++ more ∧ rest = more ++ back := by
  rcases List.append_eq_append_iff.mp h with ⟨more, hmore, hback⟩ | ⟨more, hmore, hrest⟩
  · cases hlast : more.getLast? with
    | none =>
      obtain rfl := List.getLast?_eq_none_iff.mp hlast
      exact ⟨[], by simpa using hmore.symm, by simpa using hback.symm⟩
    | some c =>
      have hc : c ∈ back := by
        rw [hback]
        exact List.mem_append_left rest (List.mem_of_getLast? hlast)
      have hend : c ∈ solid := by
        apply List.mem_of_getLast?
        rw [← List.getLast?_append_of_ne_nil front hne, hmore, List.getLast?_append, hlast]
        rfl
      exact absurd ((hsolid c hend).symm.trans (hb c hc)) Bool.false_ne_true
  · exact ⟨more, hmore, hrest⟩

private theorem isJavadocOpener_iff (line : Text) : isJavadocOpener line = true ↔
    ∃ front rest, line = front ++ ['/', '*', '*'] ++ rest ∧ IsIndentation front ∧ '\n' ∉ rest := by
  simp only [isJavadocOpener, Option.any_eq_true, Text.after?_eq_some_iff, lacksLineFeed_iff]
  constructor
  · intro ⟨rest, h, hn⟩
    refine ⟨line.takeWhile Text.isIndent, rest, ?_, List.all_eq_true.mp List.all_takeWhile, hn⟩
    rw [List.append_assoc, ← h, List.takeWhile_append_dropWhile]
  · rintro ⟨front, rest, rfl, hf, hn⟩
    refine ⟨rest, ?_, hn⟩
    rw [List.append_assoc, List.dropWhile_append_of_pos hf]
    rfl

private theorem isJavadocOpener_before {back : Text} (hb : IsIndentation back) (line : Text) :
    isJavadocOpener (line ++ back) = isJavadocOpener line := by
  rw [Bool.eq_iff_iff, isJavadocOpener_iff, isJavadocOpener_iff]
  constructor
  · rintro ⟨front, rest, h, hf, hn⟩
    obtain ⟨more, rfl, rfl⟩ := exists_rest_of_append hb (List.cons_ne_nil _ _)
      (List.forall_iff_forall_mem.mp (by decide)) h
    exact ⟨front, more, rfl, hf, fun hm => hn (List.mem_append_left _ hm)⟩
  · rintro ⟨front, rest, rfl, hf, hn⟩
    refine ⟨front, rest ++ back, List.append_assoc .., hf, ?_⟩
    rw [List.mem_append, not_or]
    exact ⟨hn, hb.isLine.2⟩

theorem IsMarker.ne_nil {marker : Text} (h : IsMarker marker) : marker ≠ [] := by
  rcases h with rfl | ⟨stars, rfl⟩ <;> exact List.cons_ne_nil _ _

private theorem IsMarker.isIndent_eq_false {marker : Text} (h : IsMarker marker) :
    ∀ c ∈ marker, Text.isIndent c = false := by
  rcases h with rfl | ⟨stars, rfl⟩
  · exact List.forall_iff_forall_mem.mp (by decide)
  · intro c hc
    simp only [List.mem_cons, List.mem_replicate] at hc
    rcases hc with rfl | rfl | ⟨-, rfl⟩ <;> rfl

/-- The sequence ends before the spaces and tabs at the end of a line; where it is empty, the
marker does. -/
theorem isSkipLine_before {sequence back : Text}
    (hs : ∀ c ∈ sequence, Text.isIndent c = false) (hb : IsIndentation back) (line : Text) :
    isSkipLine sequence (line ++ back) = isSkipLine sequence line := by
  rw [Bool.eq_iff_iff, isSkipLine_iff, isSkipLine_iff]
  constructor
  · rintro ⟨front, marker, blanks, rest, h, hf, hm, hblanks, hn⟩
    by_cases hempty : sequence = []
    · rw [hempty, List.append_nil, List.append_assoc] at h
      obtain ⟨more, rfl, hrest⟩ := exists_rest_of_append hb hm.ne_nil hm.isIndent_eq_false h
      refine ⟨front, marker, [], more, by simp [hempty], hf, hm, isIndentation_nil, ?_⟩
      intro hmore
      have hmem : '\n' ∈ blanks ++ rest := hrest ▸ List.mem_append_left _ hmore
      exact (List.mem_append.mp hmem).elim hblanks.isLine.2 hn
    · obtain ⟨more, rfl, rfl⟩ := exists_rest_of_append hb hempty hs h
      exact ⟨front, marker, blanks, more, rfl, hf, hm, hblanks,
        fun hmore => hn (List.mem_append_left _ hmore)⟩
  · rintro ⟨front, marker, blanks, rest, rfl, hf, hm, hblanks, hn⟩
    refine ⟨front, marker, blanks, rest ++ back, by simp, hf, hm, hblanks, ?_⟩
    rw [List.mem_append, not_or]
    exact ⟨hn, hb.isLine.2⟩

private theorem Indented.isJavadocOpener_eq {line wide : Text} (h : Indented line wide) :
    isJavadocOpener wide = isJavadocOpener line := by
  obtain ⟨front, back, hf, hb, rfl⟩ := h
  rw [isJavadocOpener_before hb, isJavadocOpener_behind hf]

private theorem Indented.isSkipLine_eq {sequence line wide : Text}
    (hs : ∀ c ∈ sequence, Text.isIndent c = false) (h : Indented line wide) :
    isSkipLine sequence wide = isSkipLine sequence line := by
  obtain ⟨front, back, hf, hb, rfl⟩ := h
  rw [isSkipLine_before hs hb, isSkipLine_behind hf]

private theorem IndentedInFront.isSkipLine_eq {sequence line wide : Text}
    (h : IndentedInFront line wide) : isSkipLine sequence wide = isSkipLine sequence line := by
  obtain ⟨front, hf, rfl⟩ := h
  exact isSkipLine_behind hf sequence line

end Guard

open Guard

/-! ### Scores -/

private theorem Evidence.score_indented {α : Type} (A : Arithmetic α) {line wide : Text}
    (h : Indented line wide) : score A wide = score A line := by
  obtain ⟨front, back, hf, hb, rfl⟩ := h
  rw [score, combined, probabilities, score, combined, probabilities]
  congr 1
  apply List.map_congr_left
  intro e he
  rw [probability, probability, Measure.measure_indented hf hb line A e he]

/-! ### Verdicts -/

namespace Scan

variable {α : Type} [LE α] [DecidableLE α] {o : Options α} {score : Text → α}

private theorem verdict_lines_congr {ls ms : List Text} (h : List.Forall₂ (fun l m =>
      isSkipLine o.skipSequence m = isSkipLine o.skipSequence l ∧ score m = score l) ls ms)
    (i : Nat) : (lines o.threshold (isSkipLine o.skipSequence) score i ms).verdict =
      (lines o.threshold (isSkipLine o.skipSequence) score i ls).verdict := by
  induction h generalizing i with
  | nil => rfl
  | cons hline _ ih =>
    rw [lines, lines, hline.1, hline.2]
    split
    · rfl
    · split
      · rfl
      · exact ih (i + 1)

private theorem opensJavadoc_indented {ls ms : List Text} (h : List.Forall₂ Indented ls ms) :
    opensJavadoc ms = opensJavadoc ls := by
  cases h with
  | nil => rfl
  | cons hline _ =>
    simp only [opensJavadoc, List.head?_cons, Option.any_some]
    exact hline.isJavadocOpener_eq

private theorem isLine_of_indented {ls ms : List Text} (h : List.Forall₂ Indented ls ms)
    (hl : ∀ line ∈ ls, Text.IsLine line) : ∀ line ∈ ms, Text.IsLine line := by
  induction h with
  | nil => exact hl
  | cons hline _ ih =>
    rw [List.forall_mem_cons] at hl ⊢
    exact ⟨hline.isLine hl.1, ih hl.2⟩

private theorem splitLines_indented {cs ds : Text} {ms : List Text}
    (h : List.Forall₂ Indented (Text.splitLines cs) ms) (hd : ds = Text.join ['\n'] ms) :
    Text.splitLines ds = ms := by
  have hlines : ∀ line ∈ ms, Text.IsLine line :=
    isLine_of_indented h fun _ hline => Text.isLine_of_mem_splitLines hline
  rw [hd]
  refine Text.splitLines_join ?_ hlines
  rintro rfl
  -- a line that is empty with spaces and tabs around it is empty without them
  generalize hls : Text.splitLines cs = ls at h
  cases h with
  | cons hline hrest =>
    obtain ⟨front, back, -, -, hempty⟩ := hline
    cases hrest
    have hnil := (List.append_eq_nil_iff.mp (List.append_eq_nil_iff.mp hempty.symm).1).2
    rw [hnil] at hls
    exact Text.splitLines_ne_empty_line cs hls

/-- The verdict on indented lines, if skipping does not depend on the indentation. -/
theorem verdict_text_indented (hscore : ∀ l m, Indented l m → score m = score l)
    {cs ds : Text} {ms : List Text} (hd : ds = Text.join ['\n'] ms)
    (h : List.Forall₂ (fun l m => Indented l m ∧
      isSkipLine o.skipSequence m = isSkipLine o.skipSequence l) (Text.splitLines cs) ms) :
    (text o score ds).verdict = (text o score cs).verdict := by
  have hindented : List.Forall₂ Indented (Text.splitLines cs) ms := h.imp fun _ _ h => h.1
  rw [text, text, splitLines_indented hindented hd, opensJavadoc_indented hindented]
  split
  · rfl
  · exact verdict_lines_congr (h.imp fun l m h => ⟨h.2, hscore l m h.1⟩) 0

end Scan

/-- Whatever spaces and tabs are added to the lines of a comment, it is classified alike: behind
the lines if the skip sequence has none of them, in front for every sequence. -/
theorem classify_indented (o : Options Float) {c d : Comment} {wide : List Text}
    (hd : d.text = Text.join ['\n'] wide) :
    ((∀ ch ∈ o.skipSequence, Text.isIndent ch = false) →
        List.Forall₂ Indented (Text.splitLines c.text) wide →
          (classify o scoreLine d).scan.verdict = (classify o scoreLine c).scan.verdict) ∧
      (List.Forall₂ IndentedInFront (Text.splitLines c.text) wide →
        (classify o scoreLine d).scan.verdict = (classify o scoreLine c).scan.verdict) := by
  have hscore (l m : Text) (h : Indented l m) : scoreLine m = scoreLine l :=
    Evidence.score_indented .double h
  constructor
  · intro hs h
    exact Scan.verdict_text_indented hscore hd (h.imp fun _ _ h => ⟨h, h.isSkipLine_eq hs⟩)
  · intro h
    exact Scan.verdict_text_indented hscore hd (h.imp fun _ _ h => ⟨h.indented, h.isSkipLine_eq⟩)

/-- Two lines with spaces and tabs around them, and in front of them only. -/
theorem classify_indented_marker :
    let c : Comment := ⟨['a', ';', '\n', '/', '/', 'n'], 1, 2⟩
    let wide := [['\t', 'a', ';', ' '], [' ', '/', '/', 'n', '\t']]
    let front := [['\t', 'a', ';'], [' ', '/', '/', 'n']]
    let o : Options Float := ⟨Options.defaultThreshold, ['n'], true⟩
    let p : Options Float := ⟨Options.defaultThreshold, [' ', 'n'], true⟩
    ((∀ ch ∈ o.skipSequence, Text.isIndent ch = false) ∧
        List.Forall₂ Indented (Text.splitLines c.text) wide ∧
        List.Forall₂ IndentedInFront (Text.splitLines c.text) front) ∧
      (classify o scoreLine ⟨Text.join ['\n'] wide, 1, 2⟩).scan.verdict =
        (classify o scoreLine c).scan.verdict ∧
      (classify p scoreLine ⟨Text.join ['\n'] front, 1, 2⟩).scan.verdict =
        (classify p scoreLine c).scan.verdict := by
  intro c wide front o p
  have hs : ∀ ch ∈ o.skipSequence, Text.isIndent ch = false := List.forall_mem_singleton.mpr rfl
  have hwide : List.Forall₂ Indented (Text.splitLines c.text) wide :=
    .cons ⟨['\t'], [' '], by decide, by decide, rfl⟩
      (.cons ⟨[' '], ['\t'], by decide, by decide, rfl⟩ .nil)
  have hfront : List.Forall₂ IndentedInFront (Text.splitLines c.text) front :=
    .cons ⟨['\t'], by decide, rfl⟩ (.cons ⟨[' '], by decide, rfl⟩ .nil)
  exact ⟨⟨hs, hwide, hfront⟩, (classify_indented o rfl).1 hs hwide,
    (classify_indented p rfl).2 hfront⟩

end CommentedCode
