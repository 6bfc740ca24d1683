import CommentedCode.Proofs.Decimal.Rounding
import CommentedCode.Proofs.Double.Nearest
import CommentedCode.Proofs.Double.Order
/-!
# The order of shortest decimals

The shortest decimal of a double lies in its rounding interval.  The intervals of different
doubles have an end in common at most, so that shortest decimals are ordered as the doubles are.
-/
namespace CommentedCode
namespace Shortest

/-- A number lies in an interval, at an end only if that belongs to it. -/
structure Interval.Contains (i : Interval) (q : ℚ) : Prop where
  lower : (i.below : ℚ) ≤ q * i.unit
  upper : q * i.unit ≤ i.above
  inner : i.closed = false → (i.below : ℚ) < q * i.unit ∧ q * i.unit < i.above

/-! ### Points of a grid -/

private theorem le_of_inside {closed : Bool} {a b c d : Nat}
    (h : (if closed then a ≤ b && c ≤ d else a < b && c < d) = true) :
    a ≤ b ∧ c ≤ d ∧ (closed = false → a < b ∧ c < d) := by
  cases closed with
  | true =>
    have hends : a ≤ b ∧ c ≤ d := by simpa using h
    exact ⟨hends.1, hends.2, nofun⟩
  | false =>
    have hends : a < b ∧ c < d := by simpa using h
    exact ⟨hends.1.le, hends.2.le, fun _ => hends⟩

private theorem ends_of_onGrid {i : Interval} {place : Int} {n : Nat}
    (h : onGrid i place = some n) :
    i.below * 10 ^ (-place).toNat ≤ n * (10 ^ place.toNat * i.unit) ∧
      n * (10 ^ place.toNat * i.unit) ≤ i.above * 10 ^ (-place).toNat ∧
      (i.closed = false → i.below * 10 ^ (-place).toNat < n * (10 ^ place.toNat * i.unit) ∧
        n * (10 ^ place.toNat * i.unit) < i.above * 10 ^ (-place).toNat) := by
  dsimp only [onGrid] at h
  split at h
  · cases h
  · rename_i hfloor _
    obtain rfl := Option.some.inj h
    exact le_of_inside hfloor
  · rename_i hnext
    obtain rfl := Option.some.inj h
    exact le_of_inside hnext
  · rename_i hfloor hnext
    have hfloor := le_of_inside hfloor
    have hnext := le_of_inside hnext
    split_ifs at h <;> obtain rfl := Option.some.inj h <;> first | exact hfloor | exact hnext

private theorem ten_pow_pos (n : Nat) : (0 : ℚ) < 10 ^ n :=
  pow_pos (by norm_num) n

private theorem contains_of_onGrid {i : Interval} {place : Int} {n : Nat}
    (h : onGrid i place = some n) : i.Contains (n * 10 ^ place) := by
  obtain ⟨hlower, hupper, hinner⟩ := ends_of_onGrid h
  have hdown := ten_pow_pos (-place).toNat
  have hquot : (n * 10 ^ place * i.unit : ℚ) =
      n * (10 ^ place.toNat * i.unit) / 10 ^ (-place).toNat := by
    rw [zpow_eq_div (by norm_num)]
    ring
  constructor
  · rw [hquot, le_div_iff₀ hdown]
    exact_mod_cast hlower
  · rw [hquot, div_le_iff₀ hdown]
    exact_mod_cast hupper
  · intro hopen
    rw [hquot, lt_div_iff₀ hdown, div_lt_iff₀ hdown]
    exact_mod_cast hinner hopen

private theorem cut_bounds (value : Nat) {unit : Nat} (hu : 0 < unit) (place : Int) :
    ((value * 10 ^ (-place).toNat / (10 ^ place.toNat * unit) : Nat) * 10 ^ place * unit : ℚ) ≤
        value ∧
      value - 10 ^ place * unit <
        ((value * 10 ^ (-place).toNat / (10 ^ place.toNat * unit) : Nat) * 10 ^ place * unit :
          ℚ) := by
  have hup : 0 < 10 ^ place.toNat * unit := Nat.mul_pos (Nat.pow_pos (by decide)) hu
  have hle := Nat.div_mul_le_self (value * 10 ^ (-place).toNat) (10 ^ place.toNat * unit)
  have hlt := Nat.lt_div_mul_add (a := value * 10 ^ (-place).toNat) hup
  generalize value * 10 ^ (-place).toNat / (10 ^ place.toNat * unit) = n at hle hlt ⊢
  have hdown := ten_pow_pos (-place).toNat
  have hplace : (10 : ℚ) ^ place * 10 ^ (-place).toNat = 10 ^ place.toNat := by
    rw [zpow_eq_div (by norm_num), div_mul_cancel₀ _ hdown.ne']
  have hle' : (n * (10 ^ place.toNat * unit) : ℚ) ≤ value * 10 ^ (-place).toNat := by
    exact_mod_cast hle
  have hlt' : (value * 10 ^ (-place).toNat : ℚ) <
      n * (10 ^ place.toNat * unit) + 10 ^ place.toNat * unit := by exact_mod_cast hlt
  rw [← hplace] at hle' hlt'
  constructor
  · refine le_of_mul_le_mul_right ?_ hdown
    linarith
  · refine lt_of_mul_lt_mul_right ?_ hdown.le
    linarith

/-- The last grid is fine enough for what is cut off there to lie in the interval. -/
private theorem search_contains {i : Interval} (hu : 0 < i.unit) (hv : i.value < i.above)
    {size : Int} {last : Nat} (hlast : (i.below + 10 ^ (size - last) * i.unit : ℚ) ≤ i.value)
    {bound count : Nat} (h : count + bound = last) :
    i.Contains ((search i size bound count).1 * 10 ^ (search i size bound count).2) := by
  induction bound generalizing count with
  | zero =>
    obtain rfl : count = last := h
    have hcut := cut_bounds i.value hu (size - count)
    rw [Int.neg_sub] at hcut
    have hv' : (i.value : ℚ) < i.above := Nat.cast_lt.mpr hv
    rw [search]
    exact ⟨by linarith, by linarith, fun _ => ⟨by linarith, by linarith⟩⟩
  | succ bound ih =>
    rw [search]
    cases hg : onGrid i (size - count) with
    | some n => exact contains_of_onGrid hg
    | none => exact ih (by omega)

/-! ### The number of digits -/

private theorem shortfall_spec {unit bound value : Nat} (h : unit ≤ value * 10 ^ bound) :
    unit ≤ value * 10 ^ shortfall unit bound value := by
  induction bound generalizing value with
  | zero => exact h
  | succ bound ih =>
    rw [shortfall]
    split
    · rwa [pow_zero, Nat.mul_one]
    · rw [pow_succ', ← Nat.mul_assoc, Nat.mul_comm value] at h
      rw [pow_add, pow_one, ← Nat.mul_assoc, Nat.mul_comm value]
      exact ih h

theorem ten_pow_length_le {n : Nat} (h : 0 < n) :
    10 ^ ((decimalDigits n).length - 1) ≤ n := by
  have hpos : 0 < (decimalDigits n).length := Nat.length_toDigits_pos
  rcases Nat.eq_zero_or_pos ((decimalDigits n).length - 1) with hzero | hmore
  · rwa [hzero, pow_zero]
  · by_contra hlt
    have hle := (Nat.length_toDigits_le_iff (by decide) hmore).mpr (not_le.mp hlt)
    rw [decimalDigits] at hpos hle
    omega

private theorem ten_zpow_magnitude_le {i : Interval} (hu : 0 < i.unit)
    (h : i.unit ≤ i.value * 10 ^ 400) : (10 ^ (magnitude i - 1) * i.unit : ℚ) ≤ i.value := by
  rw [magnitude]
  split
  · rename_i hge
    have hlen : 0 < (decimalDigits (i.value / i.unit)).length := Nat.length_toDigits_pos
    have hpow := ten_pow_length_le (Nat.div_pos hge hu)
    have hplace : ((decimalDigits (i.value / i.unit)).length - 1 : Int) =
        ((decimalDigits (i.value / i.unit)).length - 1 : Nat) := by omega
    rw [hplace, zpow_natCast]
    exact_mod_cast (Nat.mul_le_mul_right i.unit hpow).trans (Nat.div_mul_le_self _ _)
  · have hshort := shortfall_spec h
    generalize shortfall i.unit 400 i.value = k at hshort
    have hplace : (1 - (k : Int) - 1) = -k := by omega
    rw [hplace, zpow_neg, zpow_natCast, inv_mul_le_iff₀ (ten_pow_pos k), mul_comm]
    exact_mod_cast hshort

/-! ### The rounding interval -/

private theorem dropZeros_eq (bound n : Nat) (place : Int) :
    ((dropZeros bound n place).1 * 10 ^ (dropZeros bound n place).2 : ℚ) = n * 10 ^ place := by
  induction bound generalizing n place with
  | zero => rfl
  | succ bound ih =>
    rw [dropZeros]
    split
    · rename_i hzero
      have hn : (n : ℚ) = (n / 10 : Nat) * 10 := by
        have : n = n / 10 * 10 := by omega
        exact_mod_cast this
      rw [ih, zpow_add_one₀ (by norm_num), hn]
      ring
    · rfl

/-- The size of the shortest decimal for `m · 2 ^ q`. -/
def shortest (m : Nat) (q : Int) : ℚ :=
  (digits m q).1 * 10 ^ (digits m q).2

/-- Four times the mantissa of the lower end of the rounding interval. -/
def lowerEnd (m : Nat) (q : Int) : Nat :=
  4 * m - if m = 2 ^ 52 ∧ q ≠ -1074 then 1 else 2

theorem two_pow_le_ten_pow {j k : Nat} (h : j ≤ 3 * k) : 2 ^ j ≤ 10 ^ k :=
  calc 2 ^ j
    _ ≤ 2 ^ (3 * k) := Nat.pow_le_pow_right (by decide) h
    _ = (2 ^ 3) ^ k := pow_mul ..
    _ ≤ 10 ^ k := Nat.pow_le_pow_left (by decide) k

/-- A mantissa has sixteen digits at most, so the eighteenth digit of a double is worth less than a
quarter of its last bit. -/
private theorem eighteenth_digit_le {m : Nat} {q : Int} (hm : 0 < m) (hc : Double.Canonical m q) :
    (10 ^ (magnitude (interval m q) - 18) * (interval m q).unit : ℚ) ≤
      (2 ^ (q - 2).toNat : Nat) := by
  have hreach : (interval m q).unit ≤ (interval m q).value * 10 ^ 400 := by
    have hleast := hc.least
    calc (interval m q).unit
      _ ≤ 10 ^ 400 := two_pow_le_ten_pow (by omega)
      _ ≤ (interval m q).value * 10 ^ 400 :=
        Nat.le_mul_of_pos_left _ (Nat.mul_pos (Nat.mul_pos (by decide) hm) (Nat.two_pow_pos _))
  have hfirst := ten_zpow_magnitude_le (Nat.two_pow_pos _) hreach
  generalize magnitude (interval m q) = size at hfirst ⊢
  have hplace : (10 : ℚ) ^ (size - 18) * 10 ^ 17 = 10 ^ (size - 1) := by
    rw [← zpow_natCast, ← zpow_add₀ (by norm_num)]
    congr 1
    omega
  have hmantissa : (4 * m : ℚ) ≤ 10 ^ 17 := by
    have hlt := hc.lt
    have hshort : 4 * m ≤ 10 ^ 17 := by omega
    exact_mod_cast hshort
  have hvalue : ((interval m q).value : ℚ) = 4 * m * (2 ^ (q - 2).toNat : Nat) := by
    exact_mod_cast rfl
  have hmul : (4 * m * (2 ^ (q - 2).toNat : Nat) : ℚ) ≤ 10 ^ 17 * (2 ^ (q - 2).toNat : Nat) :=
    mul_le_mul_of_nonneg_right hmantissa (Nat.cast_nonneg _)
  rw [← hplace, hvalue] at hfirst
  linarith

/-- Whichever grid is taken, the shortest decimal lies in the rounding interval. -/
theorem interval_contains {m : Nat} {q : Int} (hm : 0 < m) (hc : Double.Canonical m q) :
    (interval m q).Contains (shortest m q) := by
  have hdigits : shortest m q = (search (interval m q) (magnitude (interval m q)) 17 1).1 *
      10 ^ (search (interval m q) (magnitude (interval m q)) 17 1).2 := by
    rw [shortest, digits, if_neg hm.ne']
    exact dropZeros_eq _ _ _
  have hbelow : (interval m q).below + 2 ^ (q - 2).toNat ≤ (interval m q).value := by
    change (4 * m - _) * 2 ^ (q - 2).toNat + _ ≤ 4 * m * 2 ^ (q - 2).toNat
    rw [← Nat.succ_mul]
    apply Nat.mul_le_mul_right
    split <;> omega
  have habove : (interval m q).value < (interval m q).above :=
    Nat.mul_lt_mul_of_pos_right (Nat.lt_add_of_pos_right (by decide)) (Nat.two_pow_pos _)
  have hbelow' : ((interval m q).below + (2 ^ (q - 2).toNat : Nat) : ℚ) ≤ (interval m q).value := by
    exact_mod_cast hbelow
  rw [hdigits]
  exact search_contains (Nat.two_pow_pos _) habove
    ((add_le_add_right (eighteenth_digit_le hm hc) _).trans hbelow') rfl

/-- The shortest decimal lies between the ends of the rounding interval, which belong to that only
if the mantissa is even. -/
theorem shortest_between {m : Nat} {q : Int} (hm : 0 < m) (hc : Double.Canonical m q) :
    (lowerEnd m q * 2 ^ (q - 2) : ℚ) ≤ shortest m q ∧ shortest m q ≤ (4 * m + 2) * 2 ^ (q - 2) ∧
      (m % 2 = 1 → (lowerEnd m q * 2 ^ (q - 2) : ℚ) < shortest m q ∧
        shortest m q < (4 * m + 2) * 2 ^ (q - 2)) := by
  obtain ⟨hlower, hupper, hinner⟩ := interval_contains hm hc
  have hunit : (0 : ℚ) < 2 ^ (2 - q).toNat := pow_pos (by norm_num) _
  have hscale : (2 : ℚ) ^ (q - 2) = 2 ^ (q - 2).toNat / 2 ^ (2 - q).toNat := by
    rw [zpow_eq_div (by norm_num), Int.neg_sub]
  have hbelow : ((interval m q).below : ℚ) = lowerEnd m q * 2 ^ (q - 2).toNat := by
    exact_mod_cast rfl
  have habove : ((interval m q).above : ℚ) = (4 * m + 2) * 2 ^ (q - 2).toNat := by
    exact_mod_cast rfl
  have hwhole : ((interval m q).unit : ℚ) = 2 ^ (2 - q).toNat := by exact_mod_cast rfl
  rw [hbelow, hwhole] at hlower
  rw [habove, hwhole] at hupper
  rw [hbelow, habove, hwhole] at hinner
  rw [hscale, mul_div_assoc', mul_div_assoc', div_le_iff₀ hunit, le_div_iff₀ hunit,
    div_lt_iff₀ hunit, lt_div_iff₀ hunit]
  refine ⟨hlower, hupper, fun hodd => hinner ?_⟩
  change (m % 2 == 0) = false
  rw [hodd]
  rfl

theorem shortest_mem {m : Nat} {q : Int} (hm : 0 < m) (hc : Double.Canonical m q) :
    shortest m q ∈ Set.Icc (lowerEnd m q * 2 ^ (q - 2) : ℚ) ((4 * m + 2) * 2 ^ (q - 2)) :=
  ⟨(shortest_between hm hc).1, (shortest_between hm hc).2.1⟩

private theorem upper_le_lower {m n : Nat} {e f : Int} (hm : Double.Canonical m e)
    (hn : Double.Canonical n f) (h : e < f ∨ e = f ∧ m < n) :
    ((4 * m + 2) * 2 ^ (e - 2) : ℚ) ≤ lowerEnd n f * 2 ^ (f - 2) := by
  rcases h with hlt | ⟨rfl, hlt⟩
  · have hleast := hm.least
    have hshort := hm.lt
    have hlong : 2 ^ 52 ≤ n := hn.normal.resolve_right (by omega)
    have hends : 4 * m + 2 ≤ lowerEnd n f * 2 := by
      rw [lowerEnd]
      split <;> omega
    calc ((4 * m + 2) * 2 ^ (e - 2) : ℚ)
      _ ≤ lowerEnd n f * 2 * 2 ^ (e - 2) :=
        mul_le_mul_of_nonneg_right (by exact_mod_cast hends) (zpow_nonneg (by norm_num) _)
      _ = lowerEnd n f * 2 ^ (e - 2 + 1) := by
        rw [zpow_add_one₀ two_ne_zero]
        ring
      _ ≤ lowerEnd n f * 2 ^ (f - 2) :=
        mul_le_mul_of_nonneg_left (zpow_le_zpow_right₀ (by norm_num) (by omega)) (Nat.cast_nonneg _)
  · have hends : 4 * m + 2 ≤ lowerEnd n e := by
      rw [lowerEnd]
      split <;> omega
    exact mul_le_mul_of_nonneg_right (by exact_mod_cast hends) (zpow_nonneg (by norm_num) _)

/-- The shortest decimals of positive doubles are ordered as these are. -/
theorem shortest_mono {m n : Nat} {e f : Int} (hm : 0 < m) (hn : 0 < n) (hc : Double.Canonical m e)
    (hd : Double.Canonical n f) (h : e < f ∨ e = f ∧ m ≤ n) : shortest m e ≤ shortest n f := by
  by_cases hsame : e = f ∧ m = n
  · obtain ⟨rfl, rfl⟩ := hsame
    exact le_rfl
  · exact (shortest_mem hm hc).2.trans
      ((upper_le_lower hc hd (by omega)).trans (shortest_mem hn hd).1)

private theorem shortest_nonneg (m : Nat) (q : Int) : 0 ≤ shortest m q :=
  mul_nonneg (Nat.cast_nonneg _) (zpow_nonneg (by norm_num) _)

end Shortest

namespace Numeral

open Float.Model (UnpackedFloat)
open Shortest (shortest)

/-- The value of the shortest decimal of a positive, negative or zero double. -/
inductive IsShortest : UnpackedFloat → ℚ → Prop
  | zero (s : UnpackedFloat.Sign) : IsShortest (.zero s) 0
  | positive {m : Nat} {e : Int} (hm : 0 < m) :
      Double.Canonical m e → IsShortest (.finite .positive m e hm) (shortest m e)
  | negative {m : Nat} {e : Int} (hm : 0 < m) :
      Double.Canonical m e → IsShortest (.finite .negative m e hm) (-shortest m e)

private theorem isShortest_of_ofFloat {x : Float} {d : Decimal} (h : ofFloat x = .finite d) :
    IsShortest x.toModel.unpack d.value := by
  rw [ofFloat, Double.ofFloat_eq_exact] at h
  generalize hu : x.toModel.unpack = u at h ⊢
  rcases u with s | _ | s | ⟨s, m, e, hm⟩
  case infinity => cases h
  case notANumber => cases h
  case zero =>
    obtain rfl := Numeral.finite.inj h
    have hzero : Decimal.value ⟨s == .negative, 0, 0⟩ = 0 := by
      simp [Decimal.value, Decimal.size]
    change IsShortest _ (Decimal.value ⟨s == .negative, 0, 0⟩)
    rw [hzero]
    exact .zero s
  case finite =>
    have hc : Double.Canonical m e := Double.canonical_unpack _ hu
    obtain rfl := Numeral.finite.inj h
    cases s with
    | positive => exact .positive hm hc
    | negative => exact .negative hm hc

theorem ofFloat_mono {x y : Float} (h : x ≤ y) {d e : Decimal}
    (hd : ofFloat x = .finite d) (he : ofFloat y = .finite e) : d.value ≤ e.value := by
  have hx := isShortest_of_ofFloat hd
  have hy := isShortest_of_ofFloat he
  rw [Double.le_iff, Double.le_iff_place] at h
  generalize x.toModel.unpack = u at h hx
  generalize y.toModel.unpack = w at h hy
  generalize d.value = a at hx ⊢
  generalize e.value = b at hy ⊢
  obtain ⟨p, hp, q, hq, hpq⟩ := h
  cases hx <;> cases hy <;> obtain rfl := Option.some.inj hp <;>
    obtain rfl := Option.some.inj hq <;> simp only [Prod.Lex.toLex_le_toLex] at hpq
  case zero.zero => exact le_rfl
  case zero.positive => exact Shortest.shortest_nonneg _ _
  case zero.negative => omega
  case positive.zero => omega
  case positive.positive hm hc _ _ hn hd => exact Shortest.shortest_mono hm hn hc hd (by omega)
  case positive.negative => omega
  case negative.zero => exact neg_nonpos.mpr (Shortest.shortest_nonneg _ _)
  case negative.positive =>
    exact (neg_nonpos.mpr (Shortest.shortest_nonneg _ _)).trans (Shortest.shortest_nonneg _ _)
  case negative.negative hm hc _ _ hn hd =>
    exact neg_le_neg (Shortest.shortest_mono hn hm hd hc (by omega))

theorem ofFloat_ne_nan {x y : Float} (h : x ≤ y) : ofFloat x ≠ .nan ∧ ofFloat y ≠ .nan := by
  have hplaced {z : Float} {p : Int ×ₗ Int ×ₗ Int}
      (hp : Double.place? z.toModel.unpack = some p) : ofFloat z ≠ .nan := by
    rw [ofFloat, Double.ofFloat_eq_exact]
    generalize z.toModel.unpack = u at hp ⊢
    cases u <;> simp_all [Double.place?, Double.exact, ofBinary]
  rw [Double.le_iff, Double.le_iff_place] at h
  obtain ⟨p, hp, q, hq, -⟩ := h
  exact ⟨hplaced hp, hplaced hq⟩

end Numeral
end CommentedCode
