import CommentedCode.Decimal.Nearest
import CommentedCode.Proofs.Double.Probability
/-!
# Nearest probabilities

The double nearest to a proper fraction lies between zero and one, and so does a power of a
probability, which is a fraction that is rounded once.
-/
namespace CommentedCode

open Float.Model (Format UnpackedFloat)
open Float.Model.UnpackedFloat
open Double (InUnit IsProbability)

theorem divToEven_le {num den n : Nat} (hd : 0 < den) (h : num ≤ n * den) :
    divToEven num den ≤ n := by
  have hsum := Nat.div_add_mod num den
  have hfloor : num / den ≤ n := Nat.div_le_of_le_mul (by rwa [Nat.mul_comm])
  rw [divToEven]
  rcases hfloor.lt_or_eq with hlt | heq
  · split_ifs <;> omega
  · have hrest : num % den = 0 := by
      rw [heq, Nat.mul_comm] at hsum
      omega
    rw [hrest, heq, if_pos (by omega)]

theorem le_divToEven {num den n : Nat} (hd : 0 < den) (h : n * den ≤ num) :
    n ≤ divToEven num den := by
  have hfloor : n ≤ num / den := (Nat.le_div_iff_mul_le hd).mpr h
  rw [divToEven]
  split_ifs <;> omega

namespace Nearest

theorem lt_pow_place {num den : Nat} (hn : 0 < num) (h : num ≤ den) :
    num * 2 ^ (-place num den).toNat < 2 ^ 53 * den ∧ -1074 ≤ place num den ∧
      place num den ≤ -52 := by
  have hlog : num.log2 ≤ den.log2 :=
    (Nat.le_log2 (by omega)).mpr ((Nat.log2_self_le hn.ne').trans h)
  generalize hg : max ((num.log2 : Int) - den.log2 - 53) (-1074) = g
  have hlow : g.toNat = 0 := by omega
  simp only [place, hg, hlow, pow_zero, Nat.mul_one]
  split
  · rename_i hfits
    exact ⟨hfits, by omega, by omega⟩
  · refine ⟨?_, by omega, by omega⟩
    have hbits : num.log2 + 1 + (-(g + 1)).toNat ≤ 53 + den.log2 := by omega
    calc num * 2 ^ (-(g + 1)).toNat
        < 2 ^ (num.log2 + 1) * 2 ^ (-(g + 1)).toNat :=
          Nat.mul_lt_mul_of_pos_right Nat.lt_log2_self (Nat.two_pow_pos _)
      _ = 2 ^ (num.log2 + 1 + (-(g + 1)).toNat) := (pow_add ..).symm
      _ ≤ 2 ^ (53 + den.log2) := Nat.pow_le_pow_right (by decide) hbits
      _ = 2 ^ 53 * 2 ^ den.log2 := pow_add ..
      _ ≤ 2 ^ 53 * den := Nat.mul_le_mul_left _ (Nat.log2_self_le (by omega))

/-- The mantissa is long, unless the exponent is as small as can be. -/
theorem pow_place_le {num den : Nat} (hn : 0 < num) (h : num ≤ den) :
    2 ^ 52 * den ≤ num * 2 ^ (-place num den).toNat ∨ place num den = -1074 := by
  have hlog : num.log2 ≤ den.log2 :=
    (Nat.le_log2 (by omega)).mpr ((Nat.log2_self_le hn.ne').trans h)
  generalize hg : max ((num.log2 : Int) - den.log2 - 53) (-1074) = g
  have hlow : g.toNat = 0 := by omega
  simp only [place, hg, hlow, pow_zero, Nat.mul_one]
  split
  · by_cases hleast : g = -1074
    · exact .inr hleast
    · left
      have hbits : num.log2 + (-g).toNat = 52 + (den.log2 + 1) := by omega
      calc 2 ^ 52 * den
        _ ≤ 2 ^ 52 * 2 ^ (den.log2 + 1) := Nat.mul_le_mul_left _ Nat.lt_log2_self.le
        _ = 2 ^ (num.log2 + (-g).toNat) := by rw [hbits, ← pow_add]
        _ = 2 ^ num.log2 * 2 ^ (-g).toNat := pow_add ..
        _ ≤ num * 2 ^ (-g).toNat := Nat.mul_le_mul_right _ (Nat.log2_self_le hn.ne')
  · rename_i hlong
    left
    have hshift : (-g).toNat = (-(g + 1)).toNat + 1 := by omega
    rw [hshift, pow_succ, ← Nat.mul_assoc] at hlong
    omega

theorem bits_le_one {num den : Nat} (h : num ≤ den) : bits num den ≤ 1023 * 2 ^ 52 := by
  by_cases hn : num = 0
  · rw [bits, if_pos hn]
    exact Nat.zero_le _
  obtain ⟨hfits, hleast, hmost⟩ := lt_pow_place (Nat.pos_of_ne_zero hn) h
  simp only [bits, if_neg hn]
  generalize place num den = q at hfits hleast hmost ⊢
  have hzero : q.toNat = 0 := by omega
  have hd : 0 < den := by omega
  rw [hzero, pow_zero, Nat.mul_one]
  apply (Nat.min_le_left _ _).trans
  rcases hmost.lt_or_eq with hlt | rfl
  · have hm : divToEven (num * 2 ^ (-q).toNat) den ≤ 2 ^ 53 := divToEven_le hd hfits.le
    omega
  · have hm : divToEven (num * 2 ^ 52) den ≤ 2 ^ 52 :=
      divToEven_le hd (by rw [Nat.mul_comm]; exact Nat.mul_le_mul_left _ h)
    change 1022 * 2 ^ 52 + divToEven (num * 2 ^ 52) den ≤ _
    omega

end Nearest

namespace Double

/-- Bits that do not exceed those of one hold a number from zero to one. -/
theorem unpack_inUnit (v : BitVec Format.binary64.numBits) (h : v.toNat ≤ 1023 * 2 ^ 52) :
    InUnit (unpack Format.binary64 v) := by
  have hbits := exact_unpack v
  have hcanonical := @canonical_unpack v
  have hsign : v.toNat / 2 ^ 63 % 2 = 0 := by omega
  have hfield : v.toNat / 2 ^ 52 % 2 ^ 11 = v.toNat / 2 ^ 52 := by omega
  rw [Binary.ofBits, hsign, hfield, if_neg (by omega)] at hbits
  generalize unpack Format.binary64 v = u at hbits hcanonical
  rcases u with s | _ | s | ⟨s, m, e, hm⟩
  case infinity => split at hbits <;> cases hbits
  case notANumber => split at hbits <;> cases hbits
  case zero => exact .zero s
  case finite =>
    have hc : Canonical m e := hcanonical rfl
    have hs : s = .positive := by
      cases s with
      | positive => rfl
      | negative => split at hbits <;> cases (Binary.finite.inj hbits).1
    subst hs
    refine .finite hm hc ((atMostOne_iff hc hm).mpr ?_)
    split at hbits
    · obtain ⟨-, -, rfl⟩ := Binary.finite.inj hbits
      exact Or.inl (by decide)
    · obtain ⟨-, rfl, rfl⟩ := Binary.finite.inj hbits
      omega

theorem isProbability_float {negative : Bool} {num den : Nat} (h : num ≤ den)
    (hs : negative = true → num = 0) : IsProbability (Nearest.float negative num den) := by
  cases negative with
  | true =>
    have hzero : Nearest.float true num den = Float.ofBits (UInt64.ofNat (2 ^ 63)) := by
      rw [Nearest.float, Nearest.bits, if_pos (hs rfl), if_pos rfl, Nat.zero_add]
    rw [hzero, isProbability_iff]
    exact .zero .negative
  | false =>
    have hbits := Nearest.bits_le_one h
    have htoNat : (UInt64.ofNat (Nearest.bits num den)).toNat = Nearest.bits num den := by
      rw [UInt64.toNat_ofNat']
      exact Nat.mod_eq_of_lt (by omega)
    refine .of_pack (unpack_inUnit _ ?_)
    change (UInt64.ofNat (Nearest.bits num den)).toNat ≤ _
    rw [htoNat]
    exact hbits

theorem ofFloat_eq_exact (x : Float) : Binary.ofFloat x = exact x.toModel.unpack :=
  (exact_unpack x.toModel.toBits.toBitVec).symm

theorem IsProbability.power {x : Float} (hx : IsProbability x) (k : Nat) :
    IsProbability (Nearest.power x k) := by
  rw [Nearest.power, ofFloat_eq_exact]
  have hunit := (isProbability_iff x).mp hx
  generalize x.toModel.unpack = u at hunit ⊢
  cases hunit with
  | zero s =>
    apply isProbability_float
    · cases k with
      | zero => exact le_rfl
      | succ k =>
        rw [pow_succ, Nat.mul_zero, Nat.zero_mul]
        exact Nat.zero_le _
    · intro hodd
      have hk : k ≠ 0 := by
        rintro rfl
        simp at hodd
      rw [zero_pow hk, Nat.zero_mul]
  | @finite m e hm hc h =>
    obtain ⟨he, hone⟩ := h
    apply isProbability_float
    · have hzero : e.toNat = 0 := by omega
      rw [hzero, Nat.zero_mul, pow_zero, Nat.mul_one, pow_mul]
      exact Nat.pow_le_pow_left hone k
    · exact nofun

theorem power_zero (x : Float) : Nearest.power x 0 = 1.0 := by
  rw [Nearest.power]
  cases Binary.ofFloat x with
  | finite negative m e =>
    cases negative <;> simp only [pow_zero, Nat.mul_zero] <;> rfl
  | infinite negative => rfl
  | nan => rfl

end Double
end CommentedCode
