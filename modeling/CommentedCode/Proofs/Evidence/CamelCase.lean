import CommentedCode.Evidence.Measure
/-!
# Humps between 16-bit units

A hump of a line is an uppercase letter directly behind a lowercase one.  It makes no difference
whether the characters of the line are looked at or its 16-bit units: a character that takes two
units is no letter, and neither of its surrogates is.
-/
namespace CommentedCode

namespace Utf16

def IsSurrogate (u : Nat) : Prop :=
  0xD800 ≤ u ∧ u ≤ 0xDFFF

/-- A character as one unit, or as a high surrogate and a low one. -/
def unitsOfChar (c : Char) : List Nat :=
  if 0xFFFF < c.toNat then
    [0xD800 + (c.toNat - 0x10000) / 0x400, 0xDC00 + (c.toNat - 0x10000) % 0x400]
  else [c.toNat]

def units (cs : Text) : List Nat :=
  cs.flatMap unitsOfChar

private theorem units_cons_of_plain {c : Char} (h : ¬0xFFFF < c.toNat) (cs : Text) :
    units (c :: cs) = c.toNat :: units cs := by
  rw [units, List.flatMap_cons, unitsOfChar, if_neg h, List.singleton_append]
  rfl

private theorem units_cons_of_supplementary {c : Char} (h : 0xFFFF < c.toNat) (cs : Text) :
    ∃ high low, IsSurrogate high ∧ IsSurrogate low ∧ units (c :: cs) = high :: low :: units cs := by
  have hlast : c.toNat < 0x110000 := by
    have hvalid := c.valid
    rw [UInt32.isValidChar, Nat.isValidChar] at hvalid
    change c.val.toNat < 0x110000
    omega
  refine ⟨0xD800 + (c.toNat - 0x10000) / 0x400, 0xDC00 + (c.toNat - 0x10000) % 0x400, ?_, ?_, ?_⟩
  · unfold IsSurrogate
    omega
  · unfold IsSurrogate
    omega
  · rw [units, List.flatMap_cons, unitsOfChar, if_pos h]
    rfl

end Utf16

namespace Run

/-- A table without a run that reaches between two bounds has nothing between them. -/
theorem holds_eq_false {table : List Run} {low high n : Nat}
    (h : ∀ r ∈ table, r.last < low ∨ high < r.first) (hl : low ≤ n) (hu : n ≤ high) :
    holds table n = false := by
  rw [holds]
  cases hfind : table.find? fun r => n ≤ r.last with
  | none => rfl
  | some r =>
    have hlast : n ≤ r.last := by simpa using List.find?_some hfind
    have hfirst : ¬r.first ≤ n := by
      have hapart := h r (List.mem_of_find?_eq_some hfind)
      omega
    simp [has, hfirst]

end Run

namespace Measure

/-- Among the units a lowercase letter stands directly before an uppercase one. -/
def HumpIn (caseOf : Nat → LetterCase) (us : List Nat) : Prop :=
  ∃ before a b behind, us = before ++ a :: b :: behind ∧ caseOf a = .lower ∧ caseOf b = .upper

section Units

variable {caseOf : Nat → LetterCase}

private theorem not_humpIn_singleton (u : Nat) : ¬HumpIn caseOf [u] := by
  intro ⟨before, a, b, behind, hus, _⟩
  have hlength := congrArg List.length hus
  rw [List.length_append, List.length_cons, List.length_cons, List.length_cons] at hlength
  rw [List.length_nil] at hlength
  omega

private theorem humpIn_cons_cons (u v : Nat) (us : List Nat) : HumpIn caseOf (u :: v :: us) ↔
    caseOf u = .lower ∧ caseOf v = .upper ∨ HumpIn caseOf (v :: us) := by
  constructor
  · intro ⟨before, a, b, behind, hus, ha, hb⟩
    cases before with
    | nil =>
      cases hus
      exact .inl ⟨ha, hb⟩
    | cons w before => exact .inr ⟨before, a, b, behind, (List.cons.inj hus).2, ha, hb⟩
  · intro h
    rcases h with ⟨hu, hv⟩ | ⟨before, a, b, behind, hus, ha, hb⟩
    · exact ⟨[], u, v, us, rfl, hu, hv⟩
    · exact ⟨u :: before, a, b, behind, by rw [hus, List.cons_append], ha, hb⟩

private theorem humpIn_cons_of_neither {u : Nat} (hu : caseOf u = .neither) (us : List Nat) :
    HumpIn caseOf (u :: us) ↔ HumpIn caseOf us := by
  cases us with
  | nil =>
    refine iff_of_false (not_humpIn_singleton u) ?_
    intro ⟨before, a, b, behind, hnil, _⟩
    cases before <;> cases hnil
  | cons v us => simp [humpIn_cons_cons, hu]

private theorem hasHump_cons (previous : LetterCase) (c : Char) (cs : Text) :
    hasHump caseOf previous (c :: cs) = true ↔
      previous = .lower ∧ caseOfChar caseOf c = .upper ∨
        hasHump caseOf (caseOfChar caseOf c) cs = true := by
  simp [hasHump]

variable (h : ∀ u, Utf16.IsSurrogate u → caseOf u = .neither)
include h

private theorem hasHump_iff_humpIn_cons (u : Nat) (cs : Text) :
    hasHump caseOf (caseOf u) cs = true ↔ HumpIn caseOf (u :: Utf16.units cs) := by
  induction cs generalizing u with
  | nil => exact iff_of_false Bool.false_ne_true (not_humpIn_singleton u)
  | cons c cs ih =>
    by_cases hc : 0xFFFF < c.toNat
    · obtain ⟨high, low, hhigh, hlow, hunits⟩ := Utf16.units_cons_of_supplementary hc cs
      have hcase : caseOfChar caseOf c = caseOf low := by rw [caseOfChar, if_pos hc, h low hlow]
      rw [hasHump_cons, hcase, ih low, hunits, humpIn_cons_cons,
        humpIn_cons_of_neither (h high hhigh), h high hhigh, h low hlow]
    · have hcase : caseOfChar caseOf c = caseOf c.toNat := by rw [caseOfChar, if_neg hc]
      rw [hasHump_cons, hcase, ih c.toNat, Utf16.units_cons_of_plain hc, humpIn_cons_cons]

private theorem hasHump_iff_humpIn (cs : Text) :
    hasHump caseOf .neither cs = true ↔ HumpIn caseOf (Utf16.units cs) := by
  have hspace : caseOf 0xD800 = .neither := h 0xD800 ⟨by decide, by decide⟩
  rw [← humpIn_cons_of_neither hspace, ← hasHump_iff_humpIn_cons h, hspace]

end Units

private theorem hasHump_supplementary (caseOf : Nat → LetterCase) {c : Char} (h : 0xFFFF < c.toNat)
    (previous : LetterCase) (as bs : Text) : hasHump caseOf previous (as ++ c :: bs) =
      (hasHump caseOf previous as || hasHump caseOf .neither bs) := by
  induction as generalizing previous with
  | nil =>
    have hcase : caseOfChar caseOf c = .neither := by rw [caseOfChar, if_pos h]
    simp [hasHump, hcase]
  | cons a as ih => rw [List.cons_append, hasHump, hasHump, ih, Bool.or_assoc]

private theorem camelCaseBy_supplementary (caseOf : Nat → LetterCase) {c : Char}
    (h : 0xFFFF < c.toNat) (as bs : Text) : camelCaseBy caseOf (as ++ c :: bs) =
      max (camelCaseBy caseOf as) (camelCaseBy caseOf bs) := by
  rw [camelCaseBy, camelCaseBy, camelCaseBy, hasHump_supplementary caseOf h]
  cases hasHump caseOf .neither as <;> cases hasHump caseOf .neither bs <;> rfl

end Measure

namespace LetterCase

private theorem ofUnit_surrogate {u : Nat} (h : Utf16.IsSurrogate u) : ofUnit u = .neither := by
  have hlower : ∀ r ∈ lowerRuns, r.last < 0xD800 ∨ 0xDFFF < r.first := by
    decide +kernel
  have hupper : ∀ r ∈ upperRuns, r.last < 0xD800 ∨ 0xDFFF < r.first := by
    decide +kernel
  simp [ofUnit, Run.holds_eq_false hlower h.1 h.2, Run.holds_eq_false hupper h.1 h.2]

end LetterCase

/-- A line counts once if among its 16-bit units a lowercase letter stands directly before an
uppercase one.  A character that takes two units parts the line. -/
theorem camelCase_units {caseOf : Nat → LetterCase}
    (h : ∀ u, Utf16.IsSurrogate u → caseOf u = .neither) (line : Text) :
    (Measure.camelCaseBy caseOf line = 1 ↔ Measure.HumpIn caseOf (Utf16.units line)) ∧
    (Measure.camelCaseBy caseOf line = 0 ↔ ¬Measure.HumpIn caseOf (Utf16.units line)) ∧
    ∀ as c bs, line = as ++ c :: bs → 0xFFFF < c.toNat → Measure.camelCaseBy caseOf line =
      max (Measure.camelCaseBy caseOf as) (Measure.camelCaseBy caseOf bs) := by
  rw [← Measure.hasHump_iff_humpIn h, Measure.camelCaseBy]
  refine ⟨by simp, by simp, ?_⟩
  rintro as c bs rfl hc
  exact Measure.camelCaseBy_supplementary caseOf hc as bs

/-- In the first word a character with two units stands between the letters. -/
theorem camelCase_units_parted :
    let line := "a😀B bC".toList
    (∀ u, Utf16.IsSurrogate u → LetterCase.ofUnit u = .neither) ∧
      Utf16.units line = [0x61, 0xD83D, 0xDE00, 0x42, 0x20, 0x62, 0x43] ∧
      Measure.camelCase line = 1 ∧ Measure.camelCase "a😀B".toList = 0 := by
  intro line
  have hsurrogate : ∀ u, Utf16.IsSurrogate u → LetterCase.ofUnit u = .neither :=
    fun _ => LetterCase.ofUnit_surrogate
  have hunits : Utf16.units line = [0x61, 0xD83D, 0xDE00, 0x42, 0x20, 0x62, 0x43] := by decide
  obtain ⟨hcounts, -, -⟩ := camelCase_units hsurrogate line
  obtain ⟨-, -, hparted⟩ := camelCase_units hsurrogate "a😀B".toList
  refine ⟨hsurrogate, hunits, hcounts.mpr ?_, ?_⟩
  · exact ⟨[0x61, 0xD83D, 0xDE00, 0x42, 0x20], 0x62, 0x43, [], hunits, by decide, by decide⟩
  · exact hparted ['a'] '😀' ['B'] rfl (by decide)

end CommentedCode
