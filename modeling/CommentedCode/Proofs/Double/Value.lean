import CommentedCode.Proofs.Double.Grid
/-!
# Values of doubles

A finite double stands for a rational number.  On doubles from zero to one what is left of one, a
product and a power are the exact results rounded to the nearest double, and the order of doubles
is that of their values.
-/
namespace CommentedCode

/-- The rational number that a finite double is. -/
def Binary.value? : Binary → Option ℚ
  | .finite negative m e => some ((if negative then -(m : ℚ) else m) * 2 ^ e)
  | .infinite _ => none
  | .nan => none

namespace Double

open Float.Model (Format UnpackedFloat)
open Float.Model.UnpackedFloat

def value? (x : Float) : Option ℚ :=
  (Binary.ofFloat x).value?

theorem value?_eq (x : Float) : value? x = (exact x.toModel.unpack).value? := by
  rw [value?, ofFloat_eq_exact]

theorem value?_zero (s : Sign) : (exact (.zero s)).value? = some 0 := by
  cases s <;> simp [exact, Binary.value?]

private theorem value?_positive {m : Nat} {e : Int} (hm : 0 < m) :
    (exact (.finite .positive m e hm)).value? = some (m * 2 ^ e : ℚ) := rfl

theorem atMostOne_iff_value {m : Nat} {e : Int} (hm : 0 < m) :
    AtMostOne m e ↔ (m * 2 ^ e : ℚ) ≤ 1 := by
  have hpos : (1 : ℚ) ≤ m := Nat.one_le_cast.mpr hm
  have hpow : (0 : ℚ) < 2 ^ e := zpow_pos (by norm_num) e
  have hbound (he : e ≤ 0) : (m * 2 ^ e : ℚ) ≤ 1 ↔ m ≤ 2 ^ (-e).toNat := by
    have hinv : (2 : ℚ) ^ e = ((2 ^ (-e).toNat : Nat) : ℚ)⁻¹ := by
      rw [Nat.cast_pow, Nat.cast_ofNat]
      exact eq_inv_of_mul_eq_one_right (two_pow_mul_zpow he)
    rw [hinv, ← div_eq_mul_inv, div_le_one (by positivity), Nat.cast_le]
  constructor
  · rintro ⟨he, hone⟩
    exact (hbound he).mpr hone
  · intro hone
    have he : e ≤ 0 := by
      have hle : (2 : ℚ) ^ e ≤ 1 := (le_mul_of_one_le_left hpow.le hpos).trans hone
      by_contra hpositive
      have hlt : (1 : ℚ) < 2 ^ e := one_lt_zpow₀ (by norm_num) (not_le.mp hpositive)
      exact absurd hle (not_le.mpr hlt)
    exact ⟨he, (hbound he).mp hone⟩

/-- The doubles whose value lies between zero and one are probabilities. -/
theorem inUnit_of_value {x : Float} {p : ℚ} (h : value? x = some p) (hp : p ∈ Set.Icc 0 1) :
    InUnit x.toModel.unpack := by
  rw [value?_eq] at h
  generalize hu : x.toModel.unpack = u at h ⊢
  rcases u with s | _ | s | ⟨s, m, e, hm⟩
  case infinity => cases h
  case notANumber => cases h
  case zero => exact .zero s
  case finite =>
    cases s with
    | positive =>
      have hc : Canonical m e := canonical_unpack _ hu
      rw [value?_positive, Option.some.injEq] at h
      exact .finite hm hc ((atMostOne_iff_value hm).mpr (h.trans_le hp.2))
    | negative =>
      have hneg : -(m : ℚ) * 2 ^ e = p := Option.some.inj h
      have hpos : (0 : ℚ) < m * 2 ^ e := by positivity
      have hnonneg := hp.1
      linarith

theorem exists_value {u : UnpackedFloat} (h : InUnit u) :
    ∃ p ∈ Set.Icc (0 : ℚ) 1, (exact u).value? = some p := by
  cases h with
  | zero s => exact ⟨0, ⟨le_rfl, zero_le_one⟩, value?_zero s⟩
  | @finite m e hm hc hone =>
    exact ⟨_, ⟨by positivity, (atMostOne_iff_value hm).mp hone⟩, value?_positive hm⟩

/-! ### Order -/

private theorem lt_of_exponent_lt {m n : Nat} {e f : Int} (hm : Canonical m e) (hn : Canonical n f)
    (h : f < e) : (n * 2 ^ f : ℚ) < m * 2 ^ e := by
  have hlong : 2 ^ 52 ≤ m := hm.normal.resolve_right (by have := hn.least; omega)
  have hshort : (n : ℚ) < 2 ^ 53 := by exact_mod_cast hn.lt
  calc (n * 2 ^ f : ℚ)
    _ < 2 ^ 53 * 2 ^ f := mul_lt_mul_of_pos_right hshort (zpow_pos (by norm_num) f)
    _ = 2 ^ 52 * 2 ^ (f + 1) := by
      rw [zpow_add_one₀ two_ne_zero]
      ring
    _ ≤ 2 ^ 52 * 2 ^ e :=
      mul_le_mul_of_nonneg_left (zpow_le_zpow_right₀ (by norm_num) (by omega)) (by norm_num)
    _ ≤ m * 2 ^ e :=
      mul_le_mul_of_nonneg_right (by exact_mod_cast hlong) (zpow_nonneg (by norm_num) e)

theorem le_of_value_le {u w : UnpackedFloat} (hu : InUnit u) (hw : InUnit w) {p q : ℚ}
    (hp : (exact u).value? = some p) (hq : (exact w).value? = some q) (h : p ≤ q) :
    u.le w = true := by
  rw [le_iff_place]
  cases hu with
  | zero s => cases hw <;> exact ⟨_, rfl, _, rfl, by simp [Prod.Lex.toLex_le_toLex]⟩
  | @finite m e hm hc hone =>
    rw [value?_positive, Option.some.injEq] at hp
    have hpos : (0 : ℚ) < m * 2 ^ e := by positivity
    cases hw with
    | zero s =>
      rw [value?_zero, Option.some.injEq] at hq
      linarith
    | @finite n f hn hd hone' =>
      rw [value?_positive, Option.some.injEq] at hq
      refine ⟨_, rfl, _, rfl, ?_⟩
      have hexponent : e ≤ f := by
        by_contra hlt
        have hgreater := lt_of_exponent_lt hc hd (not_le.mp hlt)
        linarith
      rcases hexponent.lt_or_eq with hlt | rfl
      · simp [Prod.Lex.toLex_le_toLex, hlt]
      · have hle : (m : ℚ) ≤ n := by
          have hpow : (0 : ℚ) < 2 ^ e := zpow_pos (by norm_num) e
          rw [← hp, ← hq] at h
          exact le_of_mul_le_mul_right h hpow
        have hmantissa : m ≤ n := Nat.cast_le.mp hle
        simp [Prod.Lex.toLex_le_toLex, hmantissa]

/-! ### Rounding -/

private theorem lastPlace_target {m : Nat} (hm : 0 < m) (e : Int) :
    lastPlace (m * 2 ^ e) = target m e := by
  have hpow : (0 : ℚ) < 2 ^ e := zpow_pos (by norm_num) e
  have hlow : (2 : ℚ) ^ (m.log2 + e : Int) ≤ m * 2 ^ e := by
    rw [zpow_add₀ two_ne_zero, zpow_natCast]
    exact mul_le_mul_of_nonneg_right (by exact_mod_cast Nat.log2_self_le hm.ne') hpow.le
  have hhigh : (m * 2 ^ e : ℚ) < 2 ^ (m.log2 + 1 + e : Int) := by
    rw [zpow_add₀ two_ne_zero, ← Nat.cast_succ, zpow_natCast]
    exact mul_lt_mul_of_pos_right (by exact_mod_cast Nat.lt_log2_self) hpow
  apply lastPlace_eq (by positivity)
  · exact le_max_right _ _
  · refine hhigh.trans_le (zpow_le_zpow_right₀ (by norm_num) ?_)
    rw [target]
    omega
  · by_cases hleast : target m e = -1074
    · exact .inr hleast
    · left
      refine le_trans (zpow_le_zpow_right₀ (by norm_num) ?_) hlow
      rw [target] at hleast ⊢
      omega

private theorem value?_roundWithAccuracy {m : Nat} {e : Int} (hm : 0 < m) (ht : e ≤ target m e) :
    (exact (roundWithAccuracy Format.binary64 .positive m e .exact)).value? =
      some (nearest (m * 2 ^ e)) := by
  have hnearest : nearest (m * 2 ^ e) =
      shifted m (target m e - e).toNat * 2 ^ target m e := by
    have hshift : (m * 2 ^ e : ℚ) = m / 2 ^ (target m e - e).toNat * 2 ^ target m e := by
      have hsum : (2 : ℚ) ^ target m e = 2 ^ (target m e - e).toNat * 2 ^ e := by
        rw [← zpow_natCast, ← zpow_add₀ two_ne_zero]
        congr 1
        omega
      rw [hsum]
      field_simp
    rw [nearest_of_lastPlace (lastPlace_target hm e) hshift, toEven_shifted, Int.cast_natCast]
  have hle := shifted_target_le m e
  rw [hnearest, roundWithAccuracy_eq ht hle]
  generalize shifted m (target m e - e).toNat = r at hle ⊢
  dsimp only
  split
  · rename_i hzero
    rw [value?_zero, hzero, Nat.cast_zero, zero_mul]
  · split
    · exact value?_positive _
    · -- a bit was lost to the exponent
      have htop : r = 2 ^ 53 := by omega
      rw [value?_positive, htop, zpow_add_one₀ two_ne_zero]
      push_cast
      congr 1
      ring

private theorem value?_round {m : Nat} {e : Int} (hm : 0 < m) :
    (exact (UnpackedFloat.round Format.binary64 .positive m e)).value? =
      some (nearest (m * 2 ^ e)) := by
  obtain ⟨k, hk, heq⟩ := exists_round_eq hm e
  have hshift : ((m * 2 ^ k : Nat) : ℚ) * 2 ^ (e - k : Int) = m * 2 ^ e := by
    rw [zpow_sub₀ two_ne_zero, zpow_natCast]
    push_cast
    field_simp
  rw [heq, value?_roundWithAccuracy (Nat.mul_pos hm (Nat.two_pow_pos k)) hk, hshift]

private theorem value?_normalize {d e : Int} (hd : 0 ≤ d) :
    (exact (UnpackedFloat.normalize Format.binary64 d e .positive)).value? =
      some (nearest (d * 2 ^ e)) := by
  unfold UnpackedFloat.normalize
  split
  · rename_i hlt
    exact absurd (compare_lt_iff_lt.mp hlt) (not_lt.mpr hd)
  · rename_i heq
    rw [compare_eq_iff_eq.mp heq, Int.cast_zero, zero_mul, nearest_zero]
    exact value?_zero _
  · rename_i hgt
    have hpos : 0 < d := compare_gt_iff_gt.mp hgt
    have hcast : ((d.toNat : Nat) : ℚ) = d := by exact_mod_cast Int.toNat_of_nonneg hd
    rw [value?_round (by omega), hcast]

/-! ### Operations -/

private theorem value?_pack {u : UnpackedFloat} (h : InUnit u) :
    value? ⟨.pack u⟩ = (exact u).value? := by
  rw [value?_eq]
  change (exact (unpack Format.binary64 (pack Format.binary64 u))).value? = _
  rw [unpack_pack_inUnit h]

theorem value?_complement {x : Float} {p : ℚ} (h : value? x = some p) (hp : p ∈ Set.Icc 0 1) :
    value? (1.0 - x) = some (nearest (1 - p)) := by
  have hunit := inUnit_of_value h hp
  rw [value?_eq] at h
  change value? ⟨.pack (UnpackedFloat.sub Format.binary64 unit x.toModel.unpack)⟩ = _
  generalize x.toModel.unpack = u at h hunit ⊢
  rw [value?_pack (one_sub_inUnit hunit)]
  cases hunit with
  | zero s =>
    rw [value?_zero, Option.some.injEq] at h
    have hsub : UnpackedFloat.sub Format.binary64 unit (.zero s) = unit := rfl
    rw [hsub, value?_positive, ← h, sub_zero, nearest_one]
    norm_num
  | @finite m e hm hc hone =>
    rw [value?_positive, Option.some.injEq] at h
    have he : e ≤ -52 := by
      have := (atMostOne_iff hc hm).mp hone
      omega
    have hdiff : (0 : Int) ≤ (2 ^ (-e).toNat : Nat) - (m : Int) :=
      Int.sub_nonneg_of_le (Int.ofNat_le.mpr hone.2)
    have hexact : (((2 ^ (-e).toNat : Nat) - (m : Int) : Int) : ℚ) * 2 ^ e = 1 - p := by
      push_cast
      rw [sub_mul, two_pow_mul_zpow (by omega), h]
    rw [one_sub_finite hm he, value?_normalize hdiff, hexact]

theorem value?_mul {x y : Float} {p q : ℚ} (hx : value? x = some p) (hp : p ∈ Set.Icc 0 1)
    (hy : value? y = some q) (hq : q ∈ Set.Icc 0 1) :
    value? (x * y) = some (nearest (p * q)) := by
  have hunit := inUnit_of_value hx hp
  have hunit' := inUnit_of_value hy hq
  rw [value?_eq] at hx hy
  change value? ⟨.pack (UnpackedFloat.mul Format.binary64 x.toModel.unpack y.toModel.unpack)⟩ = _
  generalize x.toModel.unpack = u at hx hunit ⊢
  generalize y.toModel.unpack = w at hy hunit' ⊢
  rw [value?_pack (mul_inUnit hunit hunit')]
  cases hunit with
  | zero s =>
    rw [value?_zero, Option.some.injEq] at hx
    have hzero : nearest (p * q) = 0 := by rw [← hx, zero_mul, nearest_zero]
    rw [hzero]
    cases hunit' <;> exact value?_zero _
  | @finite m e hm hc hone =>
    cases hunit' with
    | zero s =>
      rw [value?_zero, Option.some.injEq] at hy
      have hzero : nearest (p * q) = 0 := by rw [← hy, mul_zero, nearest_zero]
      rw [hzero]
      exact value?_zero _
    | @finite n f hn hd hone' =>
      rw [value?_positive, Option.some.injEq] at hx hy
      have hexact : ((m * n : Nat) : ℚ) * 2 ^ (e + f) = p * q := by
        rw [zpow_add₀ two_ne_zero, ← hx, ← hy]
        push_cast
        ring
      have hround := value?_roundWithAccuracy (Nat.mul_pos hm hn)
        (product_le_target hm hn hc hd hone hone')
      rw [hexact] at hround
      exact hround

/-! ### Fractions and powers -/

/-- Exponent and mantissa in the bits of a double; a mantissa that is rounded up to a power of two
makes the exponent larger. -/
private theorem value?_ofBits {q : Int} {m : Nat} (hleast : -1074 ≤ q) (hmost : q ≤ -52)
    (hm : m ≤ 2 ^ 53) (hnormal : 2 ^ 52 ≤ m ∨ q = -1074) :
    (Binary.ofBits ((q + 1074).toNat * 2 ^ 52 + m)).value? = some (m * 2 ^ q : ℚ) := by
  generalize hj : (q + 1074).toNat = j
  have hsign : (j * 2 ^ 52 + m) / 2 ^ 63 % 2 = 0 := by omega
  rw [Binary.ofBits, hsign]
  by_cases hshort : m < 2 ^ 52
  · obtain rfl : q = -1074 := hnormal.resolve_left (not_le.mpr hshort)
    have hfield : (j * 2 ^ 52 + m) / 2 ^ 52 % 2 ^ 11 = 0 := by omega
    have hfraction : (j * 2 ^ 52 + m) % 2 ^ 52 = m := by omega
    rw [hfield, hfraction]
    rfl
  · by_cases hlong : m < 2 ^ 53
    · have hfield : (j * 2 ^ 52 + m) / 2 ^ 52 % 2 ^ 11 = j + 1 := by omega
      have hfraction : (j * 2 ^ 52 + m) % 2 ^ 52 + 2 ^ 52 = m := by omega
      have hexponent : ((j + 1 : Nat) : Int) - 1075 = q := by omega
      rw [hfield, if_neg (by omega), if_neg (by omega), hfraction, hexponent]
      rfl
    · have hfield : (j * 2 ^ 52 + m) / 2 ^ 52 % 2 ^ 11 = j + 2 := by omega
      have hfraction : (j * 2 ^ 52 + m) % 2 ^ 52 + 2 ^ 52 = 2 ^ 52 := by omega
      have hexponent : ((j + 2 : Nat) : Int) - 1075 = q + 1 := by omega
      have htop : m = 2 ^ 53 := by omega
      rw [hfield, if_neg (by omega), if_neg (by omega), hfraction, hexponent, htop]
      change some ((2 ^ 52 : Nat) * 2 ^ (q + 1) : ℚ) = _
      rw [zpow_add_one₀ two_ne_zero]
      push_cast
      congr 1
      ring

private theorem lastPlace_div {num den : Nat} (hn : 0 < num) (h : num ≤ den) :
    lastPlace (num / den) = Nearest.place num den := by
  obtain ⟨hlt, hleast, hmost⟩ := Nearest.lt_pow_place hn h
  have hden : (0 : ℚ) < den := Nat.cast_pos.mpr (hn.trans_le h)
  have hnum : (0 : ℚ) < num := Nat.cast_pos.mpr hn
  have hnormal := Nearest.pow_place_le hn h
  generalize Nearest.place num den = t at hlt hleast hmost hnormal ⊢
  have hpow : (num : ℚ) * 2 ^ (-t).toNat * 2 ^ t = num := by
    rw [mul_assoc, two_pow_mul_zpow (by omega), mul_one]
  have hpos : (0 : ℚ) < 2 ^ t := zpow_pos (by norm_num) t
  apply lastPlace_eq (div_pos hnum hden) hleast
  · rw [div_lt_iff₀ hden, zpow_add₀ two_ne_zero, zpow_ofNat]
    have hcast : (num : ℚ) * 2 ^ (-t).toNat < 2 ^ 53 * den := by exact_mod_cast hlt
    calc (num : ℚ)
      _ = num * 2 ^ (-t).toNat * 2 ^ t := hpow.symm
      _ < 2 ^ 53 * den * 2 ^ t := mul_lt_mul_of_pos_right hcast hpos
      _ = 2 ^ t * 2 ^ 53 * den := by ring
  · refine hnormal.imp_left fun hlong => ?_
    rw [le_div_iff₀ hden, zpow_add₀ two_ne_zero, zpow_ofNat]
    have hcast : (2 ^ 52 * den : ℚ) ≤ num * 2 ^ (-t).toNat := by exact_mod_cast hlong
    calc (2 ^ t * 2 ^ 52 * den : ℚ)
      _ = 2 ^ 52 * den * 2 ^ t := by ring
      _ ≤ num * 2 ^ (-t).toNat * 2 ^ t := mul_le_mul_of_nonneg_right hcast hpos.le
      _ = num := hpow

/-- The bits that are computed for a proper fraction are those of the nearest double. -/
theorem value?_bits {num den : Nat} (hd : 0 < den) (h : num ≤ den) :
    (Binary.ofBits (Nearest.bits num den)).value? = some (nearest (num / den)) := by
  by_cases hn : num = 0
  · have hzero : nearest (num / den) = 0 := by rw [hn, Nat.cast_zero, zero_div, nearest_zero]
    rw [Nearest.bits, if_pos hn, hzero]
    exact value?_zero .positive
  have hpos := Nat.pos_of_ne_zero hn
  have hone := Nearest.bits_le_one h
  have hplace := lastPlace_div hpos h
  obtain ⟨hlt, hleast, hmost⟩ := Nearest.lt_pow_place hpos h
  have hnormal := Nearest.pow_place_le hpos h
  simp only [Nearest.bits, if_neg hn] at hone ⊢
  generalize Nearest.place num den = t at hone hplace hlt hleast hmost hnormal ⊢
  have hzero : t.toNat = 0 := by omega
  rw [hzero, pow_zero, Nat.mul_one] at hone ⊢
  have hmantissa : divToEven (num * 2 ^ (-t).toNat) den ≤ 2 ^ 53 := divToEven_le hd hlt.le
  have hlong : 2 ^ 52 ≤ divToEven (num * 2 ^ (-t).toNat) den ∨ t = -1074 :=
    hnormal.imp_left fun hle => le_divToEven hd hle
  have hvalue := value?_ofBits hleast hmost hmantissa hlong
  have hshift : (num / den : ℚ) = (num * 2 ^ (-t).toNat : Nat) / den * 2 ^ t := by
    push_cast
    rw [div_mul_eq_mul_div, mul_assoc, two_pow_mul_zpow (by omega), mul_one]
  rw [nearest_of_lastPlace hplace hshift, toEven_div hd, min_eq_left (by omega), hvalue]
  rfl

theorem value?_float {negative : Bool} {num den : Nat} (hd : 0 < den) (h : num ≤ den)
    (hs : negative = true → num = 0) :
    value? (Nearest.float negative num den) = some (nearest (num / den)) := by
  cases negative with
  | true =>
    have hzero : Nearest.float true num den = Float.ofBits (UInt64.ofNat (2 ^ 63)) := by
      rw [Nearest.float, Nearest.bits, if_pos (hs rfl), if_pos rfl, Nat.zero_add]
    rw [hzero, hs rfl, Nat.cast_zero, zero_div, nearest_zero, value?_eq]
    exact value?_zero .negative
  | false =>
    have hbits := Nearest.bits_le_one h
    have htoNat : (UInt64.ofNat (Nearest.bits num den)).toNat = Nearest.bits num den := by
      rw [UInt64.toNat_ofNat']
      exact Nat.mod_eq_of_lt (by omega)
    have hunit := unpack_inUnit (UInt64.ofNat (Nearest.bits num den)).toBitVec
      (htoNat.trans_le hbits)
    calc value? (Nearest.float false num den)
      _ = value? ⟨.pack (unpack Format.binary64
            (UInt64.ofNat (Nearest.bits num den)).toBitVec)⟩ := rfl
      _ = (Binary.ofBits (UInt64.ofNat (Nearest.bits num den)).toNat).value? := by
        rw [value?_pack hunit, exact_unpack]
        rfl
      _ = some (nearest (num / den)) := by rw [htoNat, value?_bits hd h]

private theorem value?_float_pow (negative : Bool) {m : Nat} {e : Int} (h : AtMostOne m e)
    (hs : negative = true → m = 0) (k : Nat) :
    value? (Nearest.float (negative && k % 2 == 1) (m ^ k * 2 ^ (e.toNat * k))
      (2 ^ ((-e).toNat * k))) = some (nearest ((m * 2 ^ e) ^ k)) := by
  obtain ⟨he, hone⟩ := h
  have hzero : e.toNat = 0 := by omega
  rw [hzero, Nat.zero_mul, pow_zero, Nat.mul_one, pow_mul]
  have hquot : ((m ^ k : Nat) : ℚ) / (((2 ^ (-e).toNat) ^ k : Nat) : ℚ) = (m * 2 ^ e) ^ k := by
    have hinv : (2 : ℚ) ^ e = (2 ^ (-e).toNat)⁻¹ :=
      eq_inv_of_mul_eq_one_right (two_pow_mul_zpow he)
    push_cast
    rw [hinv, ← div_pow, div_eq_mul_inv]
  rw [← hquot]
  apply value?_float
  · exact Nat.pow_pos (Nat.two_pow_pos _)
  · exact Nat.pow_le_pow_left hone k
  · intro hodd
    rw [Bool.and_eq_true, beq_iff_eq] at hodd
    have hk : k ≠ 0 := by
      rintro rfl
      exact absurd hodd.2 (by decide)
    rw [hs hodd.1, zero_pow hk]

theorem value?_power {x : Float} {p : ℚ} (h : value? x = some p) (hp : p ∈ Set.Icc 0 1)
    (k : Nat) : value? (Nearest.power x k) = some (nearest (p ^ k)) := by
  have hunit := inUnit_of_value h hp
  rw [value?_eq] at h
  rw [Nearest.power, ofFloat_eq_exact]
  generalize x.toModel.unpack = u at h hunit ⊢
  cases hunit with
  | zero s =>
    have hzero : ((0 : Nat) * 2 ^ (-1074 : Int) : ℚ) = p := by
      rw [value?_zero, Option.some.injEq] at h
      rw [← h, Nat.cast_zero, zero_mul]
    have hsmall : AtMostOne 0 (-1074) := ⟨by decide, Nat.zero_le _⟩
    have hpow := value?_float_pow (s == .negative) hsmall (fun _ => rfl) k
    rw [hzero] at hpow
    exact hpow
  | @finite m e hm hc hone =>
    rw [value?_positive, Option.some.injEq] at h
    rw [← h]
    exact value?_float_pow false hone (fun h => absurd h Bool.false_ne_true) k

end Double
end CommentedCode
