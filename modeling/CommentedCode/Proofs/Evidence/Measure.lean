import CommentedCode.Evidence.Basic
import CommentedCode.Proofs.Classifier.SkipLine
import CommentedCode.Proofs.Text.Occurrence
import Mathlib.Data.List.TakeWhile
/-!
# Measures of longer lines

What is counted in a part of a line is counted in the line, except that a terminator shows only
at the end.  Spaces and tabs around a line change none of the measures.
-/
namespace CommentedCode

open Guard (IsIndentation)

namespace Text

private theorem getLast?_trimRight (cs : Text) :
    (trimRight cs).getLast? = cs.reverse.find? (!isBlank ·) := by
  rw [trimRight, dropLastWhile, List.getLast?_reverse, ← List.find?_not_eq_head?_dropWhile]

private theorem withoutBlanks_append (as bs : Text) :
    withoutBlanks (as ++ bs) = withoutBlanks as ++ withoutBlanks bs :=
  List.filter_append ..

private theorem isBlank_of_isIndent {c : Char} (h : isIndent c = true) : isBlank c = true := by
  simp only [isIndent, Bool.or_eq_true, beq_iff_eq] at h
  rcases h with rfl | rfl <;> rfl

private theorem withoutBlanks_indentation {cs : Text} (h : IsIndentation cs) :
    withoutBlanks cs = [] := by
  rw [withoutBlanks, List.filter_eq_nil_iff]
  intro c hc
  simp [isBlank_of_isIndent (h c hc)]

end Text

namespace Measure

/-- Tokens have characters, and none of them is a space or a tab. -/
def AreTokens (tokens : List Text) : Prop :=
  ∀ token ∈ tokens, token ≠ [] ∧ ∀ c ∈ token, Text.isIndent c = false

instance (tokens : List Text) : Decidable (AreTokens tokens) :=
  decidable_of_iff (tokens.all fun token => !token.isEmpty && token.all (!Text.isIndent ·))
    (by simp [AreTokens])

private theorem areTokens_logicalOperators : AreTokens logicalOperators := by decide

private theorem areTokens_keywords : AreTokens keywords := by decide

private theorem areTokens_controlFlowIdioms : AreTokens controlFlowIdioms := by decide

/-! ### Parts of a line -/

theorem logicalOperatorCount_append_le (as bs : Text) :
    logicalOperatorCount as + logicalOperatorCount bs ≤ logicalOperatorCount (as ++ bs) :=
  Text.countAll_append_le (fun token h => (areTokens_logicalOperators token h).1) as bs

theorem keywordCount_append_le (as bs : Text) :
    keywordCount as + keywordCount bs ≤ keywordCount (as ++ bs) :=
  Text.countAll_append_le (fun token h => (areTokens_keywords token h).1) as bs

theorem controlFlowCount_append_le (as bs : Text) :
    controlFlowCount as + controlFlowCount bs ≤ controlFlowCount (as ++ bs) := by
  rw [controlFlowCount, controlFlowCount, controlFlowCount, Text.withoutBlanks_append]
  exact Text.countAll_append_le (fun token h => (areTokens_controlFlowIdioms token h).1) _ _

private theorem terminator_append (as bs : Text) : terminator (as ++ bs) =
    if ((bs.reverse.find? (!Text.isBlank ·)).or (as.reverse.find? (!Text.isBlank ·))).any
      terminators.contains then 1 else 0 := by
  rw [terminator, Text.getLast?_trimRight, List.reverse_append, List.find?_append]

theorem terminator_le_append (as bs : Text) : terminator bs ≤ terminator (as ++ bs) := by
  rw [terminator_append, terminator, Text.getLast?_trimRight]
  cases bs.reverse.find? (!Text.isBlank ·) with
  | none => exact Nat.zero_le _
  | some c => exact Nat.le_refl _

section Humps

variable {caseOf : Nat → LetterCase}

private theorem hasHump_of_neither {cs : Text} (h : hasHump caseOf .neither cs = true)
    (previous : LetterCase) : hasHump caseOf previous cs = true := by
  cases cs with
  | nil => exact h
  | cons c cs =>
    have hrest : hasHump caseOf (caseOfChar caseOf c) cs = true := by simpa [hasHump] using h
    simp [hasHump, hrest]

private theorem hasHump_append_of_left {as : Text} {previous : LetterCase}
    (h : hasHump caseOf previous as = true) (bs : Text) :
    hasHump caseOf previous (as ++ bs) = true := by
  induction as generalizing previous with
  | nil => exact absurd h Bool.false_ne_true
  | cons c as ih =>
    rw [List.cons_append]
    simp only [hasHump, Bool.or_eq_true] at h ⊢
    exact h.imp_right ih

private theorem hasHump_append_of_right {bs : Text} (h : hasHump caseOf .neither bs = true)
    (as : Text) (previous : LetterCase) : hasHump caseOf previous (as ++ bs) = true := by
  induction as generalizing previous with
  | nil => exact hasHump_of_neither h previous
  | cons c as ih =>
    rw [List.cons_append]
    simp only [hasHump, ih, Bool.or_true]

theorem camelCaseBy_le_append (caseOf : Nat → LetterCase) (as bs : Text) :
    camelCaseBy caseOf as ≤ camelCaseBy caseOf (as ++ bs) ∧
      camelCaseBy caseOf bs ≤ camelCaseBy caseOf (as ++ bs) := by
  have hle {p q : Bool} (h : p = true → q = true) :
      (if p then 1 else 0) ≤ (if q then 1 else 0 : Nat) := by
    cases p with
    | false => exact Nat.zero_le _
    | true => exact Nat.le_of_eq (by rw [h rfl])
  exact ⟨hle fun h => hasHump_append_of_left h bs, hle fun h => hasHump_append_of_right h as _⟩

end Humps

/-! ### Spaces and tabs around a line -/

section Indentation

variable {front back : Text} (hf : IsIndentation front) (hb : IsIndentation back) (line : Text)
include hf hb

private theorem countAll_indented {tokens : List Text} (ht : AreTokens tokens) :
    Text.countAll (front ++ line ++ back) tokens = Text.countAll line tokens := by
  rw [Text.countAll, Text.countAll]
  congr 1
  apply List.map_congr_left
  intro token htoken
  obtain ⟨hne, hsolid⟩ := ht token htoken
  have hnot {cs : Text} (h : IsIndentation cs) : ∀ c ∈ cs, c ∉ token := by
    intro c hc hmem
    exact Bool.false_ne_true ((hsolid c hmem).symm.trans (h c hc))
  rw [Text.count_before hne (hnot hb), Text.count_behind hne (hnot hf)]

private theorem terminator_indented : terminator (front ++ line ++ back) = terminator line := by
  have hnone {cs : Text} (h : IsIndentation cs) :
      cs.reverse.find? (!Text.isBlank ·) = none := by
    rw [List.find?_eq_none]
    intro c hc
    simp [Text.isBlank_of_isIndent (h c (List.mem_reverse.mp hc))]
  rw [terminator, terminator, Text.getLast?_trimRight, Text.getLast?_trimRight]
  simp only [List.reverse_append, List.find?_append, hnone hf, hnone hb, Option.none_or,
    Option.or_none]

private theorem camelCase_indented : camelCase (front ++ line ++ back) = camelCase line := by
  have hcase {c : Char} (h : Text.isIndent c = true) :
      caseOfChar LetterCase.ofUnit c = .neither := by
    simp only [Text.isIndent, Bool.or_eq_true, beq_iff_eq] at h
    rcases h with rfl | rfl <;> decide
  have hfront (cs : Text) :
      hasHump LetterCase.ofUnit .neither (front ++ cs) = hasHump LetterCase.ofUnit .neither cs := by
    induction front with
    | nil => rfl
    | cons c front ih =>
      rw [IsIndentation, List.forall_mem_cons] at hf
      rw [List.cons_append, hasHump, hcase hf.1]
      exact ih hf.2
  have hback (previous : LetterCase) : hasHump LetterCase.ofUnit previous back = false := by
    induction back generalizing previous with
    | nil => rfl
    | cons c back ih =>
      rw [IsIndentation, List.forall_mem_cons] at hb
      rw [hasHump, hcase hb.1, ih hb.2]
      simp
  have hbehind (previous : LetterCase) : hasHump LetterCase.ofUnit previous (line ++ back) =
      hasHump LetterCase.ofUnit previous line := by
    induction line generalizing previous with
    | nil => exact hback previous
    | cons c line ih =>
      rw [List.cons_append, hasHump, hasHump, ih]
  rw [camelCase, camelCase, camelCaseBy, camelCaseBy, List.append_assoc, hfront, hbehind]

theorem measure_indented {α : Type} (A : Arithmetic α) : ∀ e ∈ Evidence.standard A,
    e.measure (front ++ line ++ back) = e.measure line := by
  have hcontrol : controlFlowCount (front ++ line ++ back) = controlFlowCount line := by
    simp only [controlFlowCount, Text.withoutBlanks_append, Text.withoutBlanks_indentation hf,
      Text.withoutBlanks_indentation hb, List.nil_append, List.append_nil]
  simp only [Evidence.standard, List.forall_mem_cons, List.not_mem_nil]
  exact ⟨terminator_indented hf hb line,
    countAll_indented hf hb line areTokens_logicalOperators,
    countAll_indented hf hb line areTokens_keywords, hcontrol, camelCase_indented hf hb line, nofun⟩

end Indentation
end Measure
end CommentedCode
