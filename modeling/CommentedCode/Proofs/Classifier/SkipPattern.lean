import CommentedCode.Proofs.Classifier.SkipLine
import Mathlib.Computability.Language
/-!
# The pattern of skip lines

Skip lines are given by a regular expression: blanks, a comment marker, blanks, the sequence as it
is, and the rest of the line.  The matcher tries every place where one part can end and the next
one begin, so it accepts the language of the expression and no other line.
-/
namespace CommentedCode.Guard

open scoped Computability

/-- Single characters of a kind. -/
def oneOf (p : Char → Prop) : Language Char :=
  {cs | ∃ c, p c ∧ cs = [c]}

/-- Two slashes, or a slash and a star that more stars may follow. -/
def markers : Language Char :=
  {['/', '/']} + {['/', '*']} * (oneOf (· = '*'))∗

def skipPattern (sequence : Text) : Language Char :=
  (oneOf (Text.isIndent · = true))∗ * markers * (oneOf (Text.isIndent · = true))∗ * {sequence} *
    (oneOf (· ≠ '\n'))∗

private theorem mem_kstar_oneOf {p : Char → Prop} {cs : Text} :
    cs ∈ (oneOf p)∗ ↔ ∀ c ∈ cs, p c := by
  rw [Language.mem_kstar]
  constructor
  · rintro ⟨parts, rfl, hparts⟩ c hc
    obtain ⟨part, hpart, hmem⟩ := List.mem_flatten.mp hc
    obtain ⟨d, hd, rfl⟩ := hparts part hpart
    obtain rfl := List.mem_singleton.mp hmem
    exact hd
  · intro h
    refine ⟨cs.map ([·]), (List.flatMap_singleton' cs).symm, ?_⟩
    intro part hpart
    obtain ⟨c, hc, rfl⟩ := List.mem_map.mp hpart
    exact ⟨c, h c hc, rfl⟩

private theorem mem_markers {cs : Text} : cs ∈ markers ↔ IsMarker cs := by
  rw [markers, Language.mem_add, Language.mem_mul]
  refine or_congr Iff.rfl ?_
  constructor
  · rintro ⟨_, rfl, stars, hstars, rfl⟩
    rw [mem_kstar_oneOf] at hstars
    rw [List.eq_replicate_iff.mpr ⟨rfl, hstars⟩]
    exact ⟨stars.length, rfl⟩
  · rintro ⟨stars, rfl⟩
    refine ⟨_, rfl, _, mem_kstar_oneOf.mpr ?_, rfl⟩
    intro c hc
    exact (List.mem_replicate.mp hc).2

private theorem mem_skipPattern {sequence line : Text} : line ∈ skipPattern sequence ↔
    ∃ front marker blanks rest, line = front ++ marker ++ blanks ++ sequence ++ rest ∧
      IsIndentation front ∧ IsMarker marker ∧ IsIndentation blanks ∧ '\n' ∉ rest := by
  simp only [skipPattern, Language.mem_mul, mem_kstar_oneOf, mem_markers]
  have hrest (rest : Text) : (∀ c ∈ rest, c ≠ '\n') ↔ '\n' ∉ rest :=
    ⟨fun h hm => h _ hm rfl, fun h c hc he => h (he ▸ hc)⟩
  constructor
  · rintro ⟨_, ⟨_, ⟨_, ⟨front, hf, marker, hm, rfl⟩, blanks, hb, rfl⟩, _, rfl, rfl⟩, rest, hr, rfl⟩
    exact ⟨front, marker, blanks, rest, rfl, hf, hm, hb, (hrest rest).mp hr⟩
  · rintro ⟨front, marker, blanks, rest, rfl, hf, hm, hb, hr⟩
    exact ⟨_, ⟨_, ⟨_, ⟨front, hf, marker, hm, rfl⟩, blanks, hb, rfl⟩, _, rfl, rfl⟩, rest,
      (hrest rest).mpr hr, rfl⟩

/-- Whatever the sequence is, the skip lines are the language of the pattern: the lines that can be
cut into blanks, a marker, blanks, the sequence and a rest without line feeds. -/
theorem isSkipLine_exact (sequence line : Text) :
    (isSkipLine sequence line = true ↔ line ∈ skipPattern sequence) ∧
      (isSkipLine sequence line = true ↔
        ∃ front marker blanks rest, line = front ++ marker ++ blanks ++ sequence ++ rest ∧
          (∀ c ∈ front, c = ' ' ∨ c = '\t') ∧
          (marker = ['/', '/'] ∨ ∃ stars, marker = '/' :: '*' :: List.replicate stars '*') ∧
          (∀ c ∈ blanks, c = ' ' ∨ c = '\t') ∧ '\n' ∉ rest) := by
  have hgrammar := isSkipLine_iff sequence line
  refine ⟨hgrammar.trans mem_skipPattern.symm, hgrammar.trans ?_⟩
  simp only [IsIndentation, IsMarker, Text.isIndent, Bool.or_eq_true, beq_iff_eq]

/-- The star of the sequence is not one of the marker. -/
example : isSkipLine ['*', 'n'] ['/', '*', '*', '*', 'n'] = true := by decide

end CommentedCode.Guard
