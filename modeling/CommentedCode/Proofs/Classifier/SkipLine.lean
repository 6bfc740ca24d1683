import CommentedCode.Classifier.Guard
/-!
# Skip lines

What the matcher of skip lines accepts, as a grammar: blanks, a comment marker, blanks, the
sequence, and a rest without line feeds.
-/
namespace CommentedCode.Guard

def IsIndentation (cs : Text) : Prop :=
  ∀ c ∈ cs, Text.isIndent c = true

instance (cs : Text) : Decidable (IsIndentation cs) :=
  decidable_of_iff (cs.all Text.isIndent = true) List.all_eq_true

/-- Two slashes, or a slash and at least one star. -/
def IsMarker (cs : Text) : Prop :=
  cs = ['/', '/'] ∨ ∃ stars, cs = '/' :: '*' :: List.replicate stars '*'

private theorem isIndentation_cons (c : Char) (cs : Text) :
    IsIndentation (c :: cs) ↔ Text.isIndent c = true ∧ IsIndentation cs := by
  simp [IsIndentation]

theorem lacksLineFeed_iff (cs : Text) : lacksLineFeed cs = true ↔ '\n' ∉ cs := by
  simp only [lacksLineFeed, List.all_eq_true, decide_eq_true_eq]
  exact ⟨fun h hm => h _ hm rfl, fun h c hc he => h (he ▸ hc)⟩

private theorem isMarked_iff (sequence cs : Text) :
    isMarked sequence cs = true ↔ ∃ rest, cs = sequence ++ rest ∧ '\n' ∉ rest := by
  simp only [isMarked, Option.any_eq_true, Text.after?_eq_some_iff, lacksLineFeed_iff]

private theorem isMarkedBehindBlanks_iff (sequence cs : Text) :
    isMarkedBehindBlanks sequence cs = true ↔
      ∃ blanks rest, cs = blanks ++ sequence ++ rest ∧ IsIndentation blanks ∧ '\n' ∉ rest := by
  induction cs with
  | nil =>
    rw [isMarkedBehindBlanks, isMarked_iff]
    constructor
    · intro ⟨rest, h, hr⟩
      exact ⟨[], rest, h, by simp [IsIndentation], hr⟩
    · rintro ⟨blanks, rest, h, -, hr⟩
      simp only [List.nil_eq, List.append_eq_nil_iff] at h
      exact ⟨rest, by simp [h], hr⟩
  | cons c cs ih =>
    rw [isMarkedBehindBlanks, Bool.or_eq_true, Bool.and_eq_true, isMarked_iff, ih]
    constructor
    · rintro (⟨rest, h, hr⟩ | ⟨hc, blanks, rest, rfl, hb, hr⟩)
      · exact ⟨[], rest, h, by simp [IsIndentation], hr⟩
      · exact ⟨c :: blanks, rest, rfl, (isIndentation_cons c blanks).mpr ⟨hc, hb⟩, hr⟩
    · intro ⟨blanks, rest, h, hb, hr⟩
      cases blanks with
      | nil => exact .inl ⟨rest, h, hr⟩
      | cons b blanks =>
        obtain ⟨rfl, rfl⟩ := List.cons.inj h
        obtain ⟨hc, hb⟩ := (isIndentation_cons c blanks).mp hb
        exact .inr ⟨hc, blanks, rest, rfl, hb, hr⟩

private theorem isMarkedBehindStars_iff (sequence cs : Text) :
    isMarkedBehindStars sequence cs = true ↔
      ∃ stars blanks rest, cs = List.replicate stars '*' ++ blanks ++ sequence ++ rest ∧
        IsIndentation blanks ∧ '\n' ∉ rest := by
  induction cs with
  | nil =>
    rw [isMarkedBehindStars, isMarkedBehindBlanks_iff]
    constructor
    · intro ⟨blanks, rest, h, hb, hr⟩
      exact ⟨0, blanks, rest, h, hb, hr⟩
    · intro ⟨stars, blanks, rest, h, hb, hr⟩
      simp only [List.nil_eq, List.append_eq_nil_iff] at h
      exact ⟨blanks, rest, by simp [h], hb, hr⟩
  | cons c cs ih =>
    rw [isMarkedBehindStars, Bool.or_eq_true, Bool.and_eq_true, isMarkedBehindBlanks_iff, ih,
      beq_iff_eq]
    constructor
    · rintro (⟨blanks, rest, h, hb, hr⟩ | ⟨rfl, stars, blanks, rest, rfl, hb, hr⟩)
      · exact ⟨0, blanks, rest, h, hb, hr⟩
      · exact ⟨stars + 1, blanks, rest, rfl, hb, hr⟩
    · intro ⟨stars, blanks, rest, h, hb, hr⟩
      cases stars with
      | zero => exact .inl ⟨blanks, rest, h, hb, hr⟩
      | succ stars =>
        obtain ⟨rfl, rfl⟩ := List.cons.inj h
        exact .inr ⟨rfl, stars, blanks, rest, rfl, hb, hr⟩

private theorem dropWhile_indent {front : Text} (cs : Text) (hf : IsIndentation front) :
    (front ++ '/' :: cs).dropWhile Text.isIndent = '/' :: cs := by
  rw [List.dropWhile_append_of_pos hf]
  rfl

theorem isSkipLine_iff (sequence line : Text) :
    isSkipLine sequence line = true ↔
      ∃ front marker blanks rest, line = front ++ marker ++ blanks ++ sequence ++ rest ∧
        IsIndentation front ∧ IsMarker marker ∧ IsIndentation blanks ∧ '\n' ∉ rest := by
  constructor
  · intro h
    have hline := List.takeWhile_append_dropWhile (p := Text.isIndent) (l := line)
    have hfront : IsIndentation (line.takeWhile Text.isIndent) :=
      List.all_eq_true.mp List.all_takeWhile
    unfold isSkipLine at h
    split at h
    · rename_i cs heq
      rw [heq] at hline
      obtain ⟨blanks, rest, rfl, hb, hr⟩ := (isMarkedBehindBlanks_iff _ _).mp h
      refine ⟨_, ['/', '/'], blanks, rest, ?_, hfront, .inl rfl, hb, hr⟩
      simpa using hline.symm
    · rename_i cs heq
      rw [heq] at hline
      obtain ⟨stars, blanks, rest, rfl, hb, hr⟩ := (isMarkedBehindStars_iff _ _).mp h
      refine ⟨_, '/' :: '*' :: List.replicate stars '*', blanks, rest, ?_, hfront,
        .inr ⟨stars, rfl⟩, hb, hr⟩
      simpa using hline.symm
    · simp at h
  · rintro ⟨front, marker, blanks, rest, rfl, hf, hm, hb, hr⟩
    rcases hm with rfl | ⟨stars, rfl⟩
    · have hdrop := dropWhile_indent ('/' :: (blanks ++ sequence ++ rest)) hf
      have hline : front ++ ['/', '/'] ++ blanks ++ sequence ++ rest =
          front ++ '/' :: '/' :: (blanks ++ sequence ++ rest) := by simp
      rw [hline, isSkipLine, hdrop]
      exact (isMarkedBehindBlanks_iff sequence _).mpr ⟨blanks, rest, rfl, hb, hr⟩
    · let body := List.replicate stars '*' ++ blanks ++ sequence ++ rest
      have hdrop := dropWhile_indent ('*' :: body) hf
      have hline : front ++ '/' :: '*' :: List.replicate stars '*' ++ blanks ++ sequence ++ rest =
          front ++ '/' :: '*' :: body := by simp [body]
      rw [hline, isSkipLine, hdrop]
      exact (isMarkedBehindStars_iff sequence _).mpr ⟨stars, blanks, rest, rfl, hb, hr⟩

theorem isSkipLine_of_prefix {short long line : Text} (hp : short <+: long) (hn : '\n' ∉ line)
    (h : isSkipLine long line = true) : isSkipLine short line = true := by
  obtain ⟨more, rfl⟩ := hp
  obtain ⟨front, marker, blanks, rest, rfl, hf, hm, hb, hr⟩ := (isSkipLine_iff _ _).mp h
  refine (isSkipLine_iff _ _).mpr ⟨front, marker, blanks, more ++ rest, by simp, hf, hm, hb, ?_⟩
  intro hmem
  apply hn
  rcases List.mem_append.mp hmem with hmem | hmem
  · simp [hmem]
  · exact absurd hmem hr

end CommentedCode.Guard
