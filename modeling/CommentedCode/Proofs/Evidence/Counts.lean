import CommentedCode.Proofs.Double.Value
import CommentedCode.Proofs.Evidence.Monotone
import CommentedCode.Proofs.Evidence.Score
/-!
# Scores and counts

Double precision rounds to the nearest double, so what holds of scores with rounding holds of the
scores that are computed: a line in which no count is smaller does not score lower.
-/
namespace CommentedCode

open Double (IsProbability)

/-- Between zero and one double precision is exact arithmetic, rounded to the nearest double. -/
def Rounded.double : Rounded Arithmetic.double where
  value? := Double.value?
  round := Double.nearest
  monotone := Double.nearest_mono.mono Set.Icc_subset_Ici_self
  round_zero := Double.nearest_zero
  round_one := Double.nearest_one
  zero := (Double.value?_eq 0.0).trans (Double.value?_zero .positive)
  complement := Double.value?_complement
  mul := Double.value?_mul
  pow := by
    intro b p h hp
    refine ⟨fun k => Double.nearest (p ^ k), ?_, ?_, ?_⟩
    · change Double.nearest (p ^ 0) = 1
      rw [pow_zero, Double.nearest_one]
    · intro k l hkl
      have hpow : p ^ l ≤ p ^ k := pow_right_anti₀ hp.1 hp.2 hkl
      exact Double.nearest_mono (pow_nonneg hp.1 l) (pow_nonneg hp.1 k) hpow
    · intro k
      exact ⟨Double.nearest_nonneg (pow_nonneg hp.1 k), Double.value?_power h hp k⟩

namespace Double

private theorem inUnit_iff (x : Float) : Rounded.double.InUnit x ↔ IsProbability x := by
  rw [isProbability_iff]
  constructor
  · rintro ⟨p, hp, hx⟩
    exact inUnit_of_value hx hp
  · intro hunit
    obtain ⟨p, hp, hx⟩ := exists_value hunit
    exact ⟨p, hp, (value?_eq x).trans hx⟩

private theorem le_of_value {x y : Float} (h : Rounded.double.Le x y) : x ≤ y := by
  obtain ⟨p, q, hx, hy, hp, hpq, hq⟩ := h
  have hunit := inUnit_of_value hx ⟨hp, hpq.trans hq⟩
  have hunit' := inUnit_of_value hy ⟨hp.trans hpq, hq⟩
  have hleft : (exact x.toModel.unpack).value? = some p := (value?_eq x).symm.trans hx
  have hright : (exact y.toModel.unpack).value? = some q := (value?_eq y).symm.trans hy
  rw [le_iff]
  exact le_of_value_le hunit hunit' hleft hright hpq

end Double

open Evidence

theorem inUnit_standard : ∀ e ∈ standard .double, Rounded.double.InUnit e.weight := by
  intro e he
  exact (Double.inUnit_iff e.weight).mpr (isProbability_standard e he)

/-- A line scores no less than another one in which each of the five counts is at most as large. -/
theorem scoreLine_le {line other : Text}
    (h : ∀ e ∈ standard .double, e.measure line ≤ e.measure other) :
    scoreLine line ≤ scoreLine other := by
  have hle := combined_le inUnit_standard h
  rw [scoreLine, scoreLine, score, score]
  exact Double.le_of_value hle

/-- Scores in an arithmetic that rounds lie between zero and one, are zero where nothing is counted
and grow with the counts.  Exact scores are given in closed form and do not depend on the order of
the evidence.  Double precision is an arithmetic of this kind. -/
theorem score_grows :
    (∀ {α : Type} {A : Arithmetic α} (R : Rounded A) (table : List (Evidence α)),
      (∀ e ∈ table, R.InUnit e.weight) →
      (∀ line, (∀ p ∈ probabilities A table line, R.InUnit p) ∧ R.InUnit (combined A table line) ∧
        ((∀ e ∈ table, e.measure line = 0) → R.value? (combined A table line) = some 0)) ∧
      ∀ line other, (∀ e ∈ table, e.measure line ≤ e.measure other) →
        R.Le (combined A table line) (combined A table other)) ∧
    (∀ ps : List ℚ, noisyOr .exact ps = 1 - (ps.map (1 - ·)).prod ∧
      ∀ qs, ps.Perm qs → noisyOr .exact qs = noisyOr .exact ps) ∧
    (∀ line, score .exact line =
      1 - (1 / 20) ^ Measure.terminator line * (3 / 10) ^ Measure.logicalOperatorCount line *
        (9 / 10) ^ Measure.keywordCount line * (1 / 20) ^ Measure.controlFlowCount line *
        (1 / 2) ^ Measure.camelCase line) ∧
    (∃ R : Rounded Arithmetic.double, R.value? = Double.value? ∧ R.round = Double.nearest) ∧
    ∀ line other, (∀ e ∈ standard .double, e.measure line ≤ e.measure other) →
      scoreLine line ≤ scoreLine other := by
  refine ⟨?_, ?_, score_exact, ⟨.double, rfl, rfl⟩, fun _ _ => scoreLine_le⟩
  · intro α A R table hweights
    refine ⟨?_, fun line other => combined_le hweights⟩
    intro line
    refine ⟨?_, ?_, value?_combined_of_silent hweights⟩
    · intro p hp
      obtain ⟨e, he, rfl⟩ := List.mem_map.mp hp
      exact (probability_le (hweights e he) le_rfl).left
    · exact (combined_le hweights fun e _ => le_rfl).left
  · intro ps
    exact ⟨noisyOr_exact ps, fun qs h => (noisyOr_exact_perm h).symm⟩

/-- A line without characters and one that ends a block. -/
theorem score_grows_brace :
    let table := standard .double
    ((∀ e ∈ table, Rounded.double.InUnit e.weight) ∧ (∀ e ∈ table, e.measure [] = 0) ∧
        ∀ e ∈ table, e.measure [] ≤ e.measure ['}']) ∧
      Double.value? (combined .double table []) = some 0 ∧
      scoreLine [] ≤ scoreLine ['}'] := by
  intro table
  have hsilent := measure_nil
  have hcount : ∀ e ∈ table, e.measure [] ≤ e.measure ['}'] := by
    intro e he
    rw [hsilent e he]
    exact Nat.zero_le _
  obtain ⟨hgrows, -, -, -, hdouble⟩ := score_grows
  obtain ⟨hunit, -⟩ := hgrows Rounded.double table inUnit_standard
  exact ⟨⟨inUnit_standard, hsilent, hcount⟩, (hunit []).2.2 hsilent, hdouble [] ['}'] hcount⟩

end CommentedCode
