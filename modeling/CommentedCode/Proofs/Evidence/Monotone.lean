import CommentedCode.Evidence.Basic
import Mathlib
/-!
# Scores grow with the counts

Subtractions and products may be rounded, as long as rounding is monotone and leaves zero and one
as they are, and a power may be any number that does not grow with its exponent.  Then the
probabilities of evidence lie between zero and one, and the more is counted the larger they are.
Without rounding they combine to what is left of one by the product of what each leaves.
-/
namespace CommentedCode

/-- An arithmetic on numbers with rational values, in which the operations that scores are made of
are the exact ones, rounded. -/
structure Rounded {α : Type} (A : Arithmetic α) where
  value? : α → Option ℚ
  round : ℚ → ℚ
  monotone : MonotoneOn round (Set.Icc 0 1)
  round_zero : round 0 = 0
  round_one : round 1 = 1
  zero : value? A.zero = some 0
  complement : ∀ {a p}, value? a = some p → p ∈ Set.Icc 0 1 →
    value? (A.complement a) = some (round (1 - p))
  mul : ∀ {a b p q}, value? a = some p → p ∈ Set.Icc 0 1 → value? b = some q →
    q ∈ Set.Icc 0 1 → value? (A.mul a b) = some (round (p * q))
  pow : ∀ {b p}, value? b = some p → p ∈ Set.Icc 0 1 → ∃ powers : Nat → ℚ,
    powers 0 = 1 ∧ Antitone powers ∧ ∀ k, 0 ≤ powers k ∧ value? (A.pow b k) = some (powers k)

namespace Rounded

variable {α : Type} {A : Arithmetic α} (R : Rounded A)

/-- A number whose value lies between zero and one. -/
def InUnit (a : α) : Prop :=
  ∃ p ∈ Set.Icc (0 : ℚ) 1, R.value? a = some p

/-- Two numbers with values between zero and one, the first of which is not the larger one. -/
def Le (a b : α) : Prop :=
  ∃ p q, R.value? a = some p ∧ R.value? b = some q ∧ 0 ≤ p ∧ p ≤ q ∧ q ≤ 1

variable {R} {a b c d : α}

theorem Le.left (h : R.Le a b) : R.InUnit a := by
  obtain ⟨p, q, ha, -, hp, hpq, hq⟩ := h
  exact ⟨p, ⟨hp, hpq.trans hq⟩, ha⟩

private theorem InUnit.le_self (h : R.InUnit a) : R.Le a a := by
  obtain ⟨p, hp, ha⟩ := h
  exact ⟨p, p, ha, ha, hp.1, le_rfl, hp.2⟩

private theorem zero_le_round {p : ℚ} (hp : p ∈ Set.Icc 0 1) : 0 ≤ R.round p := by
  rw [← R.round_zero]
  exact R.monotone ⟨le_rfl, zero_le_one⟩ hp hp.1

private theorem round_le_one {p : ℚ} (hp : p ∈ Set.Icc 0 1) : R.round p ≤ 1 := by
  rw [← R.round_one]
  exact R.monotone hp ⟨zero_le_one, le_rfl⟩ hp.2

theorem Le.complement (h : R.Le a b) : R.Le (A.complement b) (A.complement a) := by
  obtain ⟨p, q, ha, hb, hp, hpq, hq⟩ := h
  have hpunit : 1 - p ∈ Set.Icc (0 : ℚ) 1 := ⟨by linarith, by linarith⟩
  have hqunit : 1 - q ∈ Set.Icc (0 : ℚ) 1 := ⟨by linarith, by linarith⟩
  refine ⟨R.round (1 - q), R.round (1 - p), R.complement hb ⟨by linarith, hq⟩,
    R.complement ha ⟨hp, by linarith⟩, zero_le_round hqunit, ?_, round_le_one hpunit⟩
  apply R.monotone hqunit hpunit
  linarith

theorem Le.mul (h : R.Le a b) (h' : R.Le c d) : R.Le (A.mul a c) (A.mul b d) := by
  obtain ⟨p, q, ha, hb, hp, hpq, hq⟩ := h
  obtain ⟨p', q', hc, hd, hp', hpq', hq'⟩ := h'
  have hprod : p * p' ≤ q * q' := mul_le_mul hpq hpq' hp' (hp.trans hpq)
  have hone : q * q' ≤ 1 := mul_le_one₀ hq (hp'.trans hpq') hq'
  have hlower : p * p' ∈ Set.Icc (0 : ℚ) 1 := ⟨mul_nonneg hp hp', hprod.trans hone⟩
  have hupper : q * q' ∈ Set.Icc (0 : ℚ) 1 := ⟨hlower.1.trans hprod, hone⟩
  exact ⟨R.round (p * p'), R.round (q * q'), R.mul ha ⟨hp, hpq.trans hq⟩ hc ⟨hp', hpq'.trans hq'⟩,
    R.mul hb ⟨hp.trans hpq, hq⟩ hd ⟨hp'.trans hpq', hq'⟩, zero_le_round hlower,
    R.monotone hlower hupper hprod, round_le_one hupper⟩

private theorem InUnit.pow_le (h : R.InUnit a) {k l : Nat} (hkl : k ≤ l) :
    R.Le (A.pow a l) (A.pow a k) := by
  obtain ⟨p, hp, ha⟩ := h
  obtain ⟨powers, hone, hanti, hpowers⟩ := R.pow ha hp
  refine ⟨powers l, powers k, (hpowers l).2, (hpowers k).2, (hpowers l).1, hanti hkl, ?_⟩
  rw [← hone]
  exact hanti (Nat.zero_le k)

end Rounded

namespace Evidence

variable {α : Type} {A : Arithmetic α} {R : Rounded A}

theorem probability_le {e : Evidence α} (h : R.InUnit e.weight) {line other : Text}
    (hcount : e.measure line ≤ e.measure other) :
    R.Le (e.probability A line) (e.probability A other) := by
  have hweight := h.le_self.complement.left
  exact (hweight.pow_le hcount).complement

private theorem step_le {total total' p p' : α} (ht : R.Le total total') (hp : R.Le p p') :
    R.Le (A.complement (A.mul (A.complement total) (A.complement p)))
      (A.complement (A.mul (A.complement total') (A.complement p'))) :=
  (ht.complement.mul hp.complement).complement

theorem zero_le : R.Le A.zero A.zero :=
  ⟨0, 0, R.zero, R.zero, le_rfl, le_rfl, zero_le_one⟩

/-- The induction is on the table, with the totals that were combined so far. -/
theorem combined_le {table : List (Evidence α)} (h : ∀ e ∈ table, R.InUnit e.weight)
    {line other : Text} (hcount : ∀ e ∈ table, e.measure line ≤ e.measure other) :
    R.Le (combined A table line) (combined A table other) := by
  have hfold (total total' : α) (ht : R.Le total total') :
      R.Le ((probabilities A table line).foldl
          (fun total p => A.complement (A.mul (A.complement total) (A.complement p))) total)
        ((probabilities A table other).foldl
          (fun total p => A.complement (A.mul (A.complement total) (A.complement p))) total') := by
    induction table generalizing total total' with
    | nil => exact ht
    | cons e table ih =>
      rw [List.forall_mem_cons] at h hcount
      exact ih h.2 hcount.2 _ _ (step_le ht (probability_le h.1 hcount.1))
  exact hfold A.zero A.zero zero_le

private theorem value?_probability_of_silent {e : Evidence α} (h : R.InUnit e.weight) {line : Text}
    (hsilent : e.measure line = 0) : R.value? (e.probability A line) = some 0 := by
  obtain ⟨p, hp, hvalue⟩ := h.le_self.complement.left
  obtain ⟨powers, hone, -, hpowers⟩ := R.pow hvalue hp
  have hsilence : R.value? (silence A e.weight (e.measure line)) = some 1 := by
    rw [silence, hsilent, (hpowers 0).2, hone]
  rw [probability, R.complement hsilence ⟨zero_le_one, le_rfl⟩, sub_self, R.round_zero]

private theorem value?_step_of_silent {total p : α} (ht : R.value? total = some 0)
    (hp : R.value? p = some 0) :
    R.value? (A.complement (A.mul (A.complement total) (A.complement p))) = some 0 := by
  have hunit : (0 : ℚ) ∈ Set.Icc 0 1 := ⟨le_rfl, zero_le_one⟩
  have hunit' : (1 : ℚ) ∈ Set.Icc 0 1 := ⟨zero_le_one, le_rfl⟩
  have hleft {a : α} (h : R.value? a = some 0) : R.value? (A.complement a) = some 1 := by
    rw [R.complement h hunit, sub_zero, R.round_one]
  have hmul : R.value? (A.mul (A.complement total) (A.complement p)) = some 1 := by
    rw [R.mul (hleft ht) hunit' (hleft hp) hunit', mul_one, R.round_one]
  rw [R.complement hmul hunit', sub_self, R.round_zero]

theorem value?_combined_of_silent {table : List (Evidence α)}
    (h : ∀ e ∈ table, R.InUnit e.weight) {line : Text}
    (hsilent : ∀ e ∈ table, e.measure line = 0) :
    R.value? (combined A table line) = some 0 := by
  have hfold (total : α) (ht : R.value? total = some 0) :
      R.value? ((probabilities A table line).foldl
        (fun total p => A.complement (A.mul (A.complement total) (A.complement p))) total) =
        some 0 := by
    induction table generalizing total with
    | nil => exact ht
    | cons e table ih =>
      rw [List.forall_mem_cons] at h hsilent
      exact ih h.2 hsilent.2 _
        (value?_step_of_silent ht (value?_probability_of_silent h.1 hsilent.1))
  exact hfold A.zero R.zero

end Evidence

/-! ### Exact arithmetic -/

def Arithmetic.exact : Arithmetic ℚ where
  zero := 0
  one := 1
  sub := (· - ·)
  mul := (· * ·)
  pow := (· ^ ·)
  percent n := n / 100

/-- Exact results are rounded to themselves. -/
def Rounded.exact : Rounded Arithmetic.exact where
  value? := some
  round := id
  monotone := monotone_id.monotoneOn _
  round_zero := rfl
  round_one := rfl
  zero := rfl
  complement := by
    intro a p h _
    obtain rfl := Option.some.inj h
    rfl
  mul := by
    intro a b p q hp _ hq _
    obtain rfl := Option.some.inj hp
    obtain rfl := Option.some.inj hq
    rfl
  pow := by
    intro b p h hp
    obtain rfl := Option.some.inj h
    refine ⟨(b ^ ·), pow_zero b, ?_, fun k => ⟨pow_nonneg hp.1 k, rfl⟩⟩
    exact pow_right_anti₀ hp.1 hp.2

namespace Evidence

theorem noisyOr_exact (ps : List ℚ) : noisyOr .exact ps = 1 - (ps.map (1 - ·)).prod := by
  have hfold (total : ℚ) : ps.foldl (fun total p => Arithmetic.exact.complement
      (Arithmetic.exact.mul (Arithmetic.exact.complement total) (Arithmetic.exact.complement p)))
        total = 1 - (1 - total) * (ps.map (1 - ·)).prod := by
    induction ps generalizing total with
    | nil =>
      rw [List.map_nil, List.prod_nil, mul_one, sub_sub_cancel]
      rfl
    | cons p ps ih =>
      rw [List.foldl_cons, ih, List.map_cons, List.prod_cons]
      change 1 - (1 - (1 - (1 - total) * (1 - p))) * _ = _
      rw [sub_sub_cancel, mul_assoc]
  have hzero := hfold 0
  rw [sub_zero, one_mul] at hzero
  exact hzero

/-- The order in which probabilities are combined does not matter. -/
theorem noisyOr_exact_perm {ps qs : List ℚ} (h : ps.Perm qs) :
    noisyOr .exact ps = noisyOr .exact qs := by
  rw [noisyOr_exact, noisyOr_exact, (h.map _).prod_eq]

theorem score_exact (line : Text) : score .exact line =
    1 - (1 / 20) ^ Measure.terminator line * (3 / 10) ^ Measure.logicalOperatorCount line *
      (9 / 10) ^ Measure.keywordCount line * (1 / 20) ^ Measure.controlFlowCount line *
      (1 / 2) ^ Measure.camelCase line := by
  have hleft (e : Evidence ℚ) :
      1 - e.probability .exact line = (1 - e.weight) ^ e.measure line := by
    change 1 - (1 - (1 - e.weight) ^ e.measure line) = _
    rw [sub_sub_cancel]
  rw [score, combined, noisyOr_exact, probabilities, List.map_map]
  simp only [standard, List.map_cons, List.map_nil, List.prod_cons, List.prod_nil,
    Function.comp_def, hleft]
  simp only [Arithmetic.exact]
  norm_num
  ring

end Evidence
end CommentedCode
