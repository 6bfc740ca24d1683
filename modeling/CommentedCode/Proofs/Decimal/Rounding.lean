import CommentedCode.Decimal.TwoPlaces
import Mathlib.Algebra.Order.Floor.Semifield
import Mathlib.Data.Rat.Floor
import Mathlib.Tactic.FieldSimp
import Mathlib.Tactic.Linarith
/-!
# Rounding to hundredths

A decimal stands for a rational number.  Two places show the multiple of a hundredth that is
nearest to it, of two that are as near the one farther from zero, so that a larger decimal is
never shown as a smaller one.
-/
namespace CommentedCode

/-! ### Halves away from zero -/

/-- `p` is the multiple of a hundredth nearest to `q`, a tie going away from zero. -/
structure IsHalfUp (q p : ℚ) : Prop where
  multiple : ∃ k : ℤ, p = k / 100
  nearest : ∀ k : ℤ, |q - p| ≤ |q - k / 100|
  tie : ∀ k : ℤ, |q - k / 100| = |q - p| → |(k / 100 : ℚ)| ≤ |p|

theorem IsHalfUp.unique {q p r : ℚ} (hp : IsHalfUp q p) (hr : IsHalfUp q r) : p = r := by
  obtain ⟨k, rfl⟩ := hp.multiple
  obtain ⟨l, rfl⟩ := hr.multiple
  have hnear : |q - k / 100| = |q - l / 100| := le_antisymm (hp.nearest l) (hr.nearest k)
  have hfar : |(k / 100 : ℚ)| = |(l / 100 : ℚ)| :=
    le_antisymm (hr.tie k hnear) (hp.tie l hnear.symm)
  rcases abs_eq_abs.mp hfar with heq | hopp
  · exact heq
  · -- opposite multiples are as near to zero only, and zero is its own multiple
    have hzero := hp.nearest 0
    rw [hopp] at hnear hzero ⊢
    rcases abs_eq_abs.mp hnear with hsame | hswap
    · linarith
    · have hq : q = 0 := by linarith
      rw [hq, Int.cast_zero, zero_div, sub_zero, abs_zero] at hzero
      have hl := abs_nonpos_iff.mp hzero
      linarith

/-- A number is in the upper half between two others if the upper one is as near. -/
private theorem middle_le {q a b : ℚ} (hab : a < b) (h : |q - b| ≤ |q - a|) :
    (a + b) / 2 ≤ q := by
  have hsq : (q - b) ^ 2 ≤ (q - a) ^ 2 := sq_le_sq.mpr h
  have hprod : 0 ≤ (b - a) * (q - (a + b) / 2) := by linarith
  exact sub_nonneg.mp (nonneg_of_mul_nonneg_right hprod (sub_pos.mpr hab))

/-- Rounding keeps the order: the middle of two multiples lies between what is nearest to them. -/
theorem IsHalfUp.mono {q r p s : ℚ} (hp : IsHalfUp q p) (hs : IsHalfUp r s) (h : q ≤ r) :
    p ≤ s := by
  rcases h.lt_or_eq with hlt | rfl
  · by_contra hless
    obtain ⟨k, hk⟩ := hp.multiple
    obtain ⟨l, hl⟩ := hs.multiple
    have hq : (s + p) / 2 ≤ q := middle_le (not_le.mp hless) (hl ▸ hp.nearest l)
    have hr : (-p + -s) / 2 ≤ -r := by
      apply middle_le (neg_lt_neg (not_le.mp hless))
      have hnear := hk ▸ hs.nearest k
      rwa [← abs_neg (r - s), ← abs_neg (r - p), neg_sub', neg_sub'] at hnear
    linarith
  · exact (hp.unique hs).le

private theorem IsHalfUp.neg {q p : ℚ} (h : IsHalfUp q p) : IsHalfUp (-q) (-p) := by
  have hflip (k : ℤ) : |-q - k / 100| = |q - (-k : ℤ) / 100| := by
    rw [← abs_neg]
    congr 1
    push_cast
    ring
  have hself : |-q - -p| = |q - p| := by
    rw [← abs_neg]
    congr 1
    ring
  constructor
  · obtain ⟨k, rfl⟩ := h.multiple
    exact ⟨-k, by push_cast; ring⟩
  · intro k
    rw [hself, hflip]
    exact h.nearest (-k)
  · intro k hk
    rw [hself, hflip] at hk
    have hfar := h.tie (-k) hk
    rwa [Int.cast_neg, neg_div, abs_neg, ← abs_neg p] at hfar

/-- Where a number is not negative, half a hundredth is added and the rest is cut off. -/
theorem isHalfUp_floor {q : ℚ} (hq : 0 ≤ q) : IsHalfUp q (⌊100 * q + 1 / 2⌋₊ / 100) := by
  have hlow : (⌊100 * q + 1 / 2⌋₊ : ℚ) ≤ 100 * q + 1 / 2 := Nat.floor_le (by linarith)
  have hhigh : 100 * q + 1 / 2 < ⌊100 * q + 1 / 2⌋₊ + 1 := Nat.lt_floor_add_one _
  generalize ⌊100 * q + 1 / 2⌋₊ = n at hlow hhigh
  have hn : (0 : ℚ) ≤ n := n.cast_nonneg
  have hnear : |q - n / 100| ≤ 1 / 200 := by
    rw [abs_le]
    constructor <;> linarith
  refine ⟨⟨n, by rw [Int.cast_natCast]⟩, fun k => ?_, fun k hk => ?_⟩
  · rcases lt_trichotomy k n with hlt | rfl | hgt
    · have hk : (k : ℚ) + 1 ≤ n := by exact_mod_cast hlt
      exact hnear.trans (le_abs.mpr (.inl (by linarith)))
    · exact le_rfl
    · have hk : (n : ℚ) + 1 ≤ k := by exact_mod_cast hgt
      exact hnear.trans (le_abs.mpr (.inr (by linarith)))
  · rw [abs_of_nonneg (by positivity : (0 : ℚ) ≤ n / 100), abs_le]
    constructor
    · -- beyond the opposite of the nearest multiple the distance grows
      by_contra hless
      have hdist : |q - n / 100| < |q - k / 100| := by
        rw [lt_abs, abs_lt]
        left
        constructor <;> linarith
      exact hdist.ne' hk
    · have hle : k ≤ n := by
        by_contra hgt
        have hk' : (n : ℚ) + 1 ≤ k := by exact_mod_cast not_le.mp hgt
        have hdist : 1 / 200 < |q - k / 100| := lt_abs.mpr (.inr (by linarith))
        linarith
      have hk' : (k : ℚ) ≤ n := by exact_mod_cast hle
      linarith

/-! ### Decimals as numbers -/

/-- A power with a whole exponent as a quotient of two powers, one of which is one. -/
theorem zpow_eq_div {b : ℚ} (hb : b ≠ 0) (e : ℤ) : b ^ e = b ^ e.toNat / b ^ (-e).toNat := by
  rw [← zpow_natCast, ← zpow_natCast, ← zpow_sub₀ hb, Int.toNat_sub_toNat_neg]

namespace Decimal

/-- The number without its sign. -/
def size (d : Decimal) : ℚ :=
  d.coefficient * 10 ^ d.exponent

/-- The number that a decimal stands for. -/
def value (d : Decimal) : ℚ :=
  if d.negative then -d.size else d.size

/-- The number of hundredths that two places show, with the sign of the decimal. -/
def rounded (d : Decimal) : Decimal :=
  ⟨d.negative, d.hundredths, -2⟩

private theorem size_nonneg (d : Decimal) : 0 ≤ d.size :=
  mul_nonneg (Nat.cast_nonneg _) (zpow_nonneg (by norm_num) _)

private theorem divHalfUp_eq {num den : Nat} (hd : 0 < den) :
    divHalfUp num den = ⌊(num / den + 1 / 2 : ℚ)⌋₊ := by
  have hden : (den : ℚ) ≠ 0 := Nat.cast_ne_zero.mpr hd.ne'
  have hquot : (num / den + 1 / 2 : ℚ) = ((2 * num + den : Nat) : ℚ) / ((2 * den : Nat) : ℚ) := by
    push_cast
    field_simp
  rw [divHalfUp, hquot, Nat.floor_div_eq_div]

theorem hundredths_eq (d : Decimal) : d.hundredths = ⌊100 * d.size + 1 / 2⌋₊ := by
  have hshift : 100 * d.size = (d.coefficient * 10 ^ (d.exponent + 2).toNat : Nat) /
      (10 ^ (-(d.exponent + 2)).toNat : Nat) := by
    push_cast
    rw [mul_div_assoc, ← zpow_eq_div (by norm_num), zpow_add₀ (by norm_num), size]
    norm_num
    ring
  rw [hundredths, divHalfUp_eq (Nat.pow_pos (by decide)), hshift]

private theorem size_rounded (d : Decimal) : d.rounded.size = d.hundredths / 100 := by
  change (d.hundredths : ℚ) * 10 ^ (-2 : ℤ) = _
  rw [zpow_neg, ← div_eq_mul_inv]
  norm_num

theorem isHalfUp_rounded (d : Decimal) : IsHalfUp d.value d.rounded.value := by
  have hsize : IsHalfUp d.size d.rounded.size := by
    rw [size_rounded, hundredths_eq]
    exact isHalfUp_floor d.size_nonneg
  rw [value, value]
  change IsHalfUp _ (if d.negative then _ else _)
  split
  · exact hsize.neg
  · exact hsize

theorem rounded_mono {d e : Decimal} (h : d.value ≤ e.value) :
    d.rounded.value ≤ e.rounded.value :=
  d.isHalfUp_rounded.mono e.isHalfUp_rounded h

theorem twoPlaces?_eq (d : Decimal) :
    d.twoPlaces? =
      if d.hundredths < 10 ^ 28 then
        some (if d.negative then '-' :: centText d.hundredths else centText d.hundredths)
      else none := by
  have hdigits : digitBound < (decimalDigits d.hundredths).length ↔ ¬d.hundredths < 10 ^ 28 := by
    rw [← not_le, not_iff_not, digitBound, decimalDigits]
    exact Nat.length_toDigits_le_iff (by decide) (by decide)
  simp only [twoPlaces?, hdigits, ite_not]

theorem twoPlaces?_congr {d e : Decimal} (hn : d.negative = e.negative) (h : d.size = e.size) :
    d.twoPlaces? = e.twoPlaces? := by
  have hsame : d.hundredths = e.hundredths := by rw [hundredths_eq, hundredths_eq, h]
  rw [twoPlaces?, twoPlaces?, hsame, hn]

end Decimal
end CommentedCode
