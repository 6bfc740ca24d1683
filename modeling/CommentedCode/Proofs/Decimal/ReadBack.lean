import CommentedCode.Proofs.Decimal.Literal
import CommentedCode.Proofs.Decimal.Shortest
import CommentedCode.Proofs.Double.Value
/-!
# Doubles are read back

The rounding interval of a double holds nothing but what is rounded to it, so that the shortest
decimal of a probability is read as that very double.
-/
namespace CommentedCode
namespace Double

/-- A number is rounded to a whole one that is no more than a half away, in a tie to an even
one. -/
theorem toEven_eq {q : ℚ} {m : ℤ} (hlow : m - 1 / 2 ≤ q) (hhigh : q ≤ m + 1 / 2)
    (hodd : m % 2 = 1 → m - 1 / 2 < q ∧ q < m + 1 / 2) : toEven q = m := by
  rcases le_or_gt (m : ℚ) q with hle | hlt
  · have hfloor : ⌊q⌋ = m := Int.floor_eq_iff.mpr ⟨hle, by linarith⟩
    have hfract : Int.fract q = q - m := by rw [Int.fract, hfloor]
    rw [toEven, hfract, hfloor]
    split_ifs with hless hmore heven
    · rfl
    · linarith
    · rfl
    · have htie := hodd (by omega)
      linarith
  · have hfloor : ⌊q⌋ = m - 1 := by
      rw [Int.floor_eq_iff]
      push_cast
      constructor <;> linarith
    have hfract : Int.fract q = q - m + 1 := by
      rw [Int.fract, hfloor]
      push_cast
      ring
    rw [toEven, hfract, hfloor]
    split_ifs with hless hmore heven
    · linarith
    · omega
    · have htie := hodd (by omega)
      linarith
    · omega

open Shortest (shortest lowerEnd shortest_between)

private theorem exists_quarters {m : Nat} {e : Int} (hm : 0 < m) (hc : Canonical m e) :
    ∃ r : ℚ, shortest m e = r * 2 ^ (e - 2) ∧ lowerEnd m e ≤ r ∧ r ≤ 4 * m + 2 ∧
      (m % 2 = 1 → lowerEnd m e < r ∧ r < 4 * m + 2) := by
  have hpow : (0 : ℚ) < 2 ^ (e - 2) := zpow_pos (by norm_num) _
  have hquot : shortest m e = shortest m e / 2 ^ (e - 2) * 2 ^ (e - 2) :=
    (div_mul_cancel₀ _ hpow.ne').symm
  have hends := shortest_between hm hc
  rw [hquot] at hends
  simp only [mul_le_mul_iff_of_pos_right hpow, mul_lt_mul_iff_of_pos_right hpow] at hends
  exact ⟨_, hquot, hends⟩

private theorem two_zpow_shift (e : Int) (k : Nat) :
    (2 : ℚ) ^ (e - 2 + k) = 2 ^ k * 2 ^ (e - 2) := by
  rw [zpow_add₀ two_ne_zero, zpow_natCast, mul_comm]

/-- Just below a power of two a decimal has its last place one binary place lower than the double
that it stands for. -/
private theorem nearest_of_quarters_below {r : ℚ} {e : Int} (he : -1074 < e) (hlow : 2 ^ 54 - 1 ≤ r)
    (hless : r < 2 ^ 54) :
    nearest (r * 2 ^ (e - 2)) = 2 ^ 52 * 2 ^ e := by
  have hpow : (0 : ℚ) < 2 ^ (e - 2) := zpow_pos (by norm_num) _
  have hplace : lastPlace (r * 2 ^ (e - 2)) = e - 1 := by
    apply lastPlace_eq (mul_pos (by linarith) hpow) (by omega)
    · have hexp : e - 1 + 53 = e - 2 + (54 : Nat) := by omega
      rw [hexp, two_zpow_shift]
      exact mul_lt_mul_of_pos_right hless hpow
    · left
      have hexp : e - 1 + 52 = e - 2 + (53 : Nat) := by omega
      rw [hexp, two_zpow_shift]
      exact mul_le_mul_of_nonneg_right (by linarith) hpow.le
  have hhalf : r * 2 ^ (e - 2) = r / 2 * 2 ^ (e - 1) := by
    have hexp : e - 1 = e - 2 + (1 : Nat) := by omega
    rw [hexp, two_zpow_shift]
    ring
  have hround : toEven (r / 2) = (2 ^ 53 : ℤ) := by
    apply toEven_eq
    · push_cast
      linarith
    · push_cast
      linarith
    · intro hodd
      exact absurd hodd (by decide)
  have hcarry : (2 : ℚ) ^ e = 2 * 2 ^ (e - 1) := by
    rw [← zpow_one_add₀ two_ne_zero]
    congr 1
    omega
  rw [nearest_of_lastPlace hplace hhalf, hround, hcarry]
  push_cast
  ring

private theorem nearest_of_quarters {r : ℚ} {m : Nat} {e : Int} (hc : Canonical m e)
    (hlow : 4 * m ≤ r + 2) (hhigh : r ≤ 4 * m + 2)
    (hodd : m % 2 = 1 → 4 * m < r + 2 ∧ r < 4 * m + 2) (hpos : 0 < r)
    (hnormal : 2 ^ 54 ≤ r ∨ e = -1074) : nearest (r * 2 ^ (e - 2)) = m * 2 ^ e := by
  have hpow : (0 : ℚ) < 2 ^ (e - 2) := zpow_pos (by norm_num) _
  have hlt : (4 * m + 2 : ℚ) < 2 ^ 55 := by
    have hmantissa := hc.lt
    have hlong : 4 * m + 2 < 2 ^ 55 := by omega
    exact_mod_cast hlong
  have hplace : lastPlace (r * 2 ^ (e - 2)) = e := by
    apply lastPlace_eq (mul_pos hpos hpow) hc.least
    · have hexp : e + 53 = e - 2 + (55 : Nat) := by omega
      rw [hexp, two_zpow_shift]
      exact mul_lt_mul_of_pos_right (hhigh.trans_lt hlt) hpow
    · refine hnormal.imp_left fun hle => ?_
      have hexp : e + 52 = e - 2 + (54 : Nat) := by omega
      rw [hexp, two_zpow_shift]
      exact mul_le_mul_of_nonneg_right hle hpow.le
  have hquarter : r * 2 ^ (e - 2) = r / 4 * 2 ^ e := by
    have hexp : e = e - 2 + (2 : Nat) := by omega
    conv_rhs => rw [hexp, two_zpow_shift]
    ring
  have hround : toEven (r / 4) = m := by
    apply toEven_eq
    · push_cast
      linarith
    · push_cast
      linarith
    · intro hm
      obtain ⟨hlow, hhigh⟩ := hodd (by omega)
      push_cast
      constructor <;> linarith
  rw [nearest_of_lastPlace hplace hquarter, hround]
  rfl

private theorem nearest_shortest {m : Nat} {e : Int} (hm : 0 < m) (hc : Canonical m e) :
    nearest (shortest m e) = m * 2 ^ e := by
  obtain ⟨r, hr, hlow, hhigh, hodd⟩ := exists_quarters hm hc
  have hend : (4 * m : ℚ) ≤ lowerEnd m e + 2 := by
    have hend : 4 * m ≤ lowerEnd m e + 2 := by
      rw [lowerEnd]
      split <;> omega
    exact_mod_cast hend
  rw [hr]
  by_cases hbelow : r < 2 ^ 54 ∧ e ≠ -1074
  · obtain ⟨hless, he⟩ := hbelow
    obtain rfl : m = 2 ^ 52 := by
      have hlong := hc.normal.resolve_right he
      have hshort : lowerEnd m e < 2 ^ 54 := by exact_mod_cast hlow.trans_lt hless
      rw [lowerEnd] at hshort
      split at hshort <;> omega
    have hnext : (lowerEnd (2 ^ 52) e : ℚ) = 2 ^ 54 - 1 := by
      rw [lowerEnd, if_pos ⟨rfl, he⟩]
      norm_num
    have hleast := hc.least
    rw [nearest_of_quarters_below (by omega) (hnext ▸ hlow) hless]
    norm_num
  · have hone : (1 : ℚ) ≤ m := Nat.one_le_cast.mpr hm
    apply nearest_of_quarters hc (by linarith) hhigh _ (by linarith)
    · rw [or_iff_not_imp_right]
      exact fun he => not_lt.mp fun hless => hbelow ⟨hless, he⟩
    · intro hm'
      obtain ⟨hlow, hhigh⟩ := hodd hm'
      exact ⟨by linarith, hhigh⟩

/-! ### Doubles and their bits -/

private theorem ofBits_inj {a b : Nat} (ha : a < 2 ^ 64) (hb : b < 2 ^ 64) {negative : Bool}
    {m : Nat} {e : Int} (h : Binary.ofBits a = .finite negative m e)
    (h' : Binary.ofBits b = .finite negative m e) : a = b := by
  have hsign {n : Nat} : n / 2 ^ 63 % 2 = if n / 2 ^ 63 % 2 == 1 then 1 else 0 := by
    simp only [beq_iff_eq]
    split <;> omega
  have ha' := @hsign a
  have hb' := @hsign b
  simp only [Binary.ofBits] at h h'
  split_ifs at h h' <;>
    · obtain ⟨hn, hm, he⟩ := Binary.finite.inj h
      obtain ⟨hn', hm', he'⟩ := Binary.finite.inj h'
      rw [hn] at ha'
      rw [hn'] at hb'
      omega

private theorem eq_of_unpack {x y : Float} (hx : InUnit x.toModel.unpack)
    (h : x.toModel.unpack = y.toModel.unpack) : x = y := by
  have hfinite : ∃ negative m e, Binary.ofFloat x = .finite negative m e := by
    rw [ofFloat_eq_exact]
    generalize x.toModel.unpack = u at hx
    cases hx <;> exact ⟨_, _, _, rfl⟩
  obtain ⟨negative, m, e, hfloat⟩ := hfinite
  have hother : Binary.ofFloat y = .finite negative m e := by
    rw [ofFloat_eq_exact, ← h, ← ofFloat_eq_exact, hfloat]
  have hbits : x.toBits = y.toBits :=
    UInt64.toNat_inj.mp (ofBits_inj x.toBits.toNat_lt y.toBits.toNat_lt hfloat hother)
  obtain ⟨⟨_, _⟩⟩ := x
  obtain ⟨⟨_, _⟩⟩ := y
  cases hbits
  rfl

private theorem eq_of_value {x y : Float} (hx : IsProbability x) (hy : IsProbability y) {p : ℚ}
    (hp : 0 < p) (h : value? x = some p) (h' : value? y = some p) : x = y := by
  rw [isProbability_iff] at hx hy
  rw [value?_eq] at h h'
  have hle := le_of_value_le hx hy h h' le_rfl
  have hge := le_of_value_le hy hx h' h le_rfl
  apply eq_of_unpack hx
  generalize x.toModel.unpack = u at hx h hle hge ⊢
  generalize y.toModel.unpack = w at hy h' hle hge ⊢
  cases hx with
  | zero s =>
    rw [value?_zero, Option.some.injEq] at h
    exact absurd h hp.ne
  | finite hm =>
    cases hy with
    | zero s =>
      rw [value?_zero, Option.some.injEq] at h'
      exact absurd h' hp.ne
    | finite hn =>
      rw [le_iff_place] at hle hge
      simp only [place?, Option.mem_def, Option.some.injEq, exists_eq_left'] at hle hge
      have hplace := le_antisymm hle hge
      simp only [EmbeddingLike.apply_eq_iff_eq, Prod.mk.injEq, true_and, Nat.cast_inj] at hplace
      simp only [hplace]

end Double

namespace Decimal

private theorem size_bounds {d : Decimal} (h : 0 < d.coefficient) :
    (10 ^ ((decimalDigits d.coefficient).length + d.exponent - 1) : ℚ) ≤ d.size ∧
      d.size < 10 ^ ((decimalDigits d.coefficient).length + d.exponent) := by
  have hpow : (0 : ℚ) < 10 ^ d.exponent := zpow_pos (by norm_num) _
  have hlow := Shortest.ten_pow_length_le h
  have hhigh : d.coefficient < 10 ^ (decimalDigits d.coefficient).length :=
    (Nat.length_toDigits_le_iff (by decide) Nat.length_toDigits_pos).mp le_rfl
  have hlen : 0 < (decimalDigits d.coefficient).length := Nat.length_toDigits_pos
  generalize (decimalDigits d.coefficient).length = n at hlow hhigh hlen ⊢
  have hexp : (n + d.exponent - 1 : Int) = (n - 1 : Nat) + d.exponent := by omega
  rw [hexp, zpow_add₀ (by norm_num), zpow_add₀ (by norm_num), zpow_natCast, zpow_natCast, size]
  constructor
  · exact mul_le_mul_of_nonneg_right (by exact_mod_cast hlow) hpow.le
  · exact mul_lt_mul_of_pos_right (by exact_mod_cast hhigh) hpow

/-- A positive decimal that is neither too small nor larger than one is read as the nearest
double. -/
theorem value?_toFloat {d : Decimal} (hn : d.negative = false)
    (hlow : (10 ^ (-400 : Int) : ℚ) ≤ d.size) (hone : d.size ≤ 1) :
    Double.value? d.toFloat = some (Double.nearest d.size) := by
  have hpos : 0 < d.size := lt_of_lt_of_le (zpow_pos (by norm_num) _) hlow
  have hcoefficient : d.coefficient ≠ 0 := by
    intro hzero
    rw [size, hzero, Nat.cast_zero, zero_mul] at hpos
    exact hpos.false
  obtain ⟨hfirst, hnext⟩ := size_bounds (Nat.pos_of_ne_zero hcoefficient)
  have hsmall : ¬((decimalDigits d.coefficient).length + d.exponent < -400) := by
    have hlt := (zpow_lt_zpow_iff_right₀ (by norm_num)).mp (hlow.trans_lt hnext)
    omega
  have hlarge : ¬(400 < (decimalDigits d.coefficient).length + d.exponent) := by
    rw [← zpow_zero (10 : ℚ)] at hone
    have hle := (zpow_le_zpow_iff_right₀ (by norm_num)).mp (hfirst.trans hone)
    omega
  have hratio : d.size = d.ratio.1 / d.ratio.2 := by
    rw [size, zpow_eq_div (by norm_num), ratio]
    push_cast
    ring
  have hden : 0 < d.ratio.2 := Nat.pow_pos (by decide)
  have hproper : d.ratio.1 ≤ d.ratio.2 := by
    rw [hratio, div_le_one (by exact_mod_cast hden)] at hone
    exact_mod_cast hone
  rw [toFloat, if_neg (not_or.mpr ⟨hcoefficient, hsmall⟩), if_neg hlarge, hn, hratio]
  exact Double.value?_float hden hproper (absurd · Bool.false_ne_true)

end Decimal

namespace Shortest

open Double (Canonical AtMostOne)

private theorem shortest_one : shortest (2 ^ 52) (-52) = 1 := by
  have hdigits : digits (2 ^ 52) (-52) = (1, 0) := by decide +kernel
  rw [shortest, hdigits]
  norm_num

private theorem shortest_le_one {m : Nat} {e : Int} (hm : 0 < m) (hc : Canonical m e)
    (h : AtMostOne m e) : shortest m e ≤ 1 := by
  rw [← shortest_one]
  have hone : Canonical (2 ^ 52) (-52) := ⟨by decide, by decide, .inl le_rfl⟩
  exact shortest_mono hm (by decide) hc hone ((Double.atMostOne_iff hc hm).mp h)

private theorem le_shortest {m : Nat} {e : Int} (hm : 0 < m) (hc : Canonical m e) :
    (10 ^ (-400 : Int) : ℚ) ≤ shortest m e := by
  have hend : 1 ≤ lowerEnd m e := by
    rw [lowerEnd]
    split <;> omega
  have hleast := hc.least
  have hpow {j k : Nat} (h : j ≤ 3 * k) : (10 ^ (-k : Int) : ℚ) ≤ 2 ^ (-j : Int) := by
    rw [zpow_neg, zpow_neg, zpow_natCast, zpow_natCast]
    apply inv_anti₀ (pow_pos (by norm_num) _)
    exact_mod_cast two_pow_le_ten_pow h
  calc (10 ^ (-400 : Int) : ℚ)
    _ ≤ 2 ^ (-1076 : Int) := hpow (by decide)
    _ ≤ 2 ^ (e - 2) := zpow_le_zpow_right₀ (by norm_num) (by omega)
    _ ≤ lowerEnd m e * 2 ^ (e - 2) :=
      le_mul_of_one_le_left (zpow_nonneg (by norm_num) _) (by exact_mod_cast hend)
    _ ≤ shortest m e := (shortest_mem hm hc).1

end Shortest

private theorem Double.unpack_toFloat_of_zero {d : Decimal} (h : d.size = 0)
    {s : Float.Model.UnpackedFloat.Sign} (hs : d.negative = (s == .negative)) :
    d.toFloat.toModel.unpack = .zero s := by
  have hpow : (0 : ℚ) < 10 ^ d.exponent := zpow_pos (by norm_num) _
  have hcoefficient : d.coefficient = 0 :=
    Nat.cast_eq_zero.mp ((mul_eq_zero.mp h).resolve_right hpow.ne')
  rw [Decimal.toFloat, if_pos (.inl hcoefficient), hs]
  cases s <;> rfl

/-- The shortest numeral of a probability is read as that probability, however it is written. -/
theorem Decimal.toFloat_of_shortest {x : Float} (hx : Double.IsProbability x) :
    ∃ d, Numeral.ofFloat x = .finite d ∧
      ∀ e : Decimal, e.negative = d.negative → e.size = d.size → e.toFloat = x := by
  rw [Double.isProbability_iff] at hx
  rw [Numeral.ofFloat, Double.ofFloat_eq_exact]
  have hunit := hx
  generalize hu : x.toModel.unpack = u at hunit ⊢
  cases hunit with
  | zero s =>
    refine ⟨_, rfl, fun e hn hsize => ?_⟩
    have hzero : e.size = 0 := by
      rw [hsize]
      exact zero_mul _
    exact (Double.eq_of_unpack hx (hu.trans (Double.unpack_toFloat_of_zero hzero hn).symm)).symm
  | @finite m e hm hc hone =>
    refine ⟨_, rfl, fun d hn hsize => ?_⟩
    change d.size = Shortest.shortest m e at hsize
    have hvalue := value?_toFloat hn (hsize ▸ Shortest.le_shortest hm hc)
      (hsize ▸ Shortest.shortest_le_one hm hc hone)
    rw [hsize, Double.nearest_shortest hm hc] at hvalue
    have hpos : (0 : ℚ) < m * 2 ^ e := by positivity
    have hread := Double.inUnit_of_value hvalue
      ⟨hpos.le, (Double.atMostOne_iff_value hm).mp hone⟩
    have hself : Double.value? x = some (m * 2 ^ e : ℚ) := by
      rw [Double.value?_eq, hu]
      rfl
    exact Double.eq_of_value ((Double.isProbability_iff _).mpr hread)
      ((Double.isProbability_iff x).mpr hx) hpos hvalue hself

/-- What is printed of a probability is read as that probability. -/
theorem Reading.float?_floatText {x : Float} (hx : Double.IsProbability x) :
    float? (floatText x) = some x := by
  obtain ⟨d, hd, hread⟩ := Decimal.toFloat_of_shortest hx
  obtain ⟨e, he, hn, hsize⟩ := Decimal.numeral?_text d
  rw [float?, floatText, hd, Numeral.text, he]
  exact congrArg some (hread e hn hsize)

end CommentedCode
