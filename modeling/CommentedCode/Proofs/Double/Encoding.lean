import CommentedCode.Decimal.Basic
import CommentedCode.Proofs.Double.Rounding
/-!
# The encoding of doubles

The bits of a double hold a sign, an exponent and a mantissa.  Encoding a canonical number and
taking it apart again gives it back.
-/
namespace CommentedCode.Double

open Float.Model (Format UnpackedFloat)
open Float.Model.UnpackedFloat

/-- An unpacked number as exact data. -/
def exact : UnpackedFloat → Binary
  | .infinity s => .infinite (s == .negative)
  | .notANumber => .nan
  | .zero s => .finite (s == .negative) 0 (-1074)
  | .finite s m e _ => .finite (s == .negative) m e

section Fields

variable (v : BitVec Format.binary64.numBits)

private theorem toNat_unpackExponent :
    (unpackExponent v : BitVec 11).toNat = v.toNat / 2 ^ 52 % 2 ^ 11 := by
  simp [unpackExponent, Nat.shiftRight_eq_div_pow]

private theorem toNat_unpackMantissa :
    (unpackMantissa v : BitVec 52).toNat = v.toNat % 2 ^ 52 := by
  simp [unpackMantissa]

private theorem unpackSign_negative :
    (Sign.ofBitVec (unpackSign v) == .negative) = (v.toNat / 2 ^ 63 % 2 == 1) := by
  have htoNat : (unpackSign v : BitVec 1).toNat = v.toNat / 2 ^ 63 % 2 := by
    simp [unpackSign, Nat.shiftRight_eq_div_pow]
  rw [Sign.ofBitVec]
  by_cases h : unpackSign v = 0#1
  · have hbit : v.toNat / 2 ^ 63 % 2 = 0 := by
      rw [← htoNat, h]
      rfl
    rw [if_pos h, hbit]
    rfl
  · have hbit : v.toNat / 2 ^ 63 % 2 = 1 := by
      have hne : (unpackSign v : BitVec 1).toNat ≠ 0 := fun h0 => h (BitVec.eq_of_toNat_eq h0)
      omega
    rw [if_neg h, hbit]
    rfl

private theorem unpackExponent_eq_iff {n : Nat} (hn : n < 2 ^ 11) :
    unpackExponent v = BitVec.ofNat 11 n ↔ v.toNat / 2 ^ 52 % 2 ^ 11 = n := by
  rw [← BitVec.toNat_inj, toNat_unpackExponent, BitVec.toNat_ofNat, Nat.mod_eq_of_lt hn]

private theorem unpackMantissa_eq_zero_iff :
    unpackMantissa v = 0#52 ↔ v.toNat % 2 ^ 52 = 0 := by
  rw [← BitVec.toNat_inj, toNat_unpackMantissa]
  rfl

private theorem toNat_implicit (fraction : BitVec 52) :
    (1#1 ++ fraction).toNat = fraction.toNat + 2 ^ 52 := by
  rw [BitVec.toNat_append]
  change 1 <<< 52 ||| fraction.toNat = _
  rw [← Nat.shiftLeft_add_eq_or_of_lt fraction.isLt, Nat.add_comm]
  rfl

theorem exact_unpack : exact (unpack Format.binary64 v) = Binary.ofBits v.toNat := by
  have hfull := unpackExponent_eq_iff v (by decide : 2047 < 2 ^ 11)
  have hnone := unpackExponent_eq_iff v (by decide : 0 < 2 ^ 11)
  have hzero := unpackMantissa_eq_zero_iff v
  have hsign := unpackSign_negative v
  change unpackExponent v = -1#11 ↔ _ at hfull
  unfold unpack Binary.ofBits
  dsimp only
  split
  · rename_i hf
    rw [if_pos (hfull.mp hf)]
    split
    · rename_i hm
      rw [if_pos (hzero.mp hm), ← hsign]
      rfl
    · rename_i hm
      rw [if_neg (mt hzero.mpr hm)]
      rfl
  · rename_i hf
    rw [if_neg (mt hfull.mpr hf)]
    split
    · rename_i hf
      rw [if_pos (hnone.mp hf), ← hsign]
      split
      · rename_i hm
        rw [hzero.mp hm]
        rfl
      · change Binary.finite _ (unpackMantissa v : BitVec 52).toNat
          (((unpackExponent v : BitVec 11).toNat : Int) - (1023 + 52) + 1) = _
        rw [toNat_unpackMantissa, toNat_unpackExponent, hnone.mp hf]
        rfl
    · rename_i hf
      rw [if_neg (mt hnone.mpr hf), ← hsign]
      change Binary.finite _ (1#1 ++ (unpackMantissa v : BitVec 52)).toNat
        (((unpackExponent v : BitVec 11).toNat : Int) - (1023 + 52)) = _
      rw [toNat_implicit, toNat_unpackMantissa, toNat_unpackExponent]
      rfl

theorem canonical_unpack {s : Sign} {m : Nat} {e : Int} {hm : 0 < m}
    (h : unpack Format.binary64 v = .finite s m e hm) : Canonical m e := by
  have hbits := exact_unpack v
  rw [h] at hbits
  have hfraction : v.toNat % 2 ^ 52 < 2 ^ 52 := Nat.mod_lt _ (Nat.two_pow_pos 52)
  unfold Binary.ofBits at hbits
  dsimp only at hbits
  split at hbits
  · split at hbits <;> cases hbits
  · split at hbits
    · obtain ⟨-, rfl, rfl⟩ := Binary.finite.inj hbits
      exact ⟨by omega, le_rfl, Or.inr rfl⟩
    · obtain ⟨-, rfl, rfl⟩ := Binary.finite.inj hbits
      exact ⟨by omega, by omega, Or.inl (Nat.le_add_left _ _)⟩

end Fields

private theorem exact_packComponents (s : Sign) {exponent : BitVec 11} (fraction : BitVec 52)
    (he : exponent ≠ -1#11) :
    exact (unpack Format.binary64 (packComponents Format.binary64 s exponent fraction)) =
      if exponent = 0#11 then .finite (s == .negative) fraction.toNat (-1074)
      else .finite (s == .negative) (fraction.toNat + 2 ^ 52) (exponent.toNat - 1075) := by
  unfold unpack
  simp only [unpackExponent_packComponents, unpackMantissa_packComponents,
    unpackSign_packComponents, Sign.ofBitVec_toBitVec, if_neg he]
  split
  · rename_i h0
    split
    · rename_i hf
      rw [hf]
      rfl
    · rw [h0]
      rfl
  · rw [← toNat_implicit]
    rfl

private theorem exact_injective : Function.Injective exact := by
  intro a b h
  have hs (s t : Sign) (hst : (s == .negative) = (t == .negative)) : s = t := by
    cases s <;> cases t <;> first | rfl | cases hst
  cases a <;> cases b <;> simp only [exact, reduceCtorEq, Binary.infinite.injEq,
    Binary.finite.injEq] at h
  case infinity.infinity s t => rw [hs s t h]
  case notANumber.notANumber => rfl
  case zero.zero s t => rw [hs s t h.1]
  case zero.finite => omega
  case finite.zero => omega
  case finite.finite s m e hm t n f hn =>
    obtain ⟨hst, rfl, rfl⟩ := h
    rw [hs s t hst]

theorem unpack_pack_zero (s : Sign) :
    unpack Format.binary64 (pack Format.binary64 (.zero s)) = .zero s := by
  cases s <;> rfl

theorem unpack_pack_finite (s : Sign) {m : Nat} {e : Int} (hm : 0 < m) (hc : Canonical m e)
    (he : e ≤ 971) :
    unpack Format.binary64 (pack Format.binary64 (.finite s m e hm)) = .finite s m e hm := by
  have hleast := hc.least
  have hbias : (e + (1023 : Nat) + (52 : Nat)).toNat = (e + 1075).toNat := by omega
  have hroom : ¬2 ^ 11 ≤ (e + 1075).toNat + 1 := by omega
  apply exact_injective
  rw [UnpackedFloat.pack]
  change exact (unpack Format.binary64 (if 2 ^ 11 ≤ (e + (1023 : Nat) + (52 : Nat)).toNat + 1 then _
    else if m.log2 + 1 = 53 then
      packComponents Format.binary64 s (BitVec.ofNat 11 (e + (1023 : Nat) + (52 : Nat)).toNat)
        (BitVec.ofNat 52 m)
    else packComponents Format.binary64 s 0#11 (BitVec.ofNat 52 m))) =
      .finite (s == .negative) m e
  rw [hbias, if_neg hroom]
  generalize hb : (e + 1075).toNat = b at hroom ⊢
  split
  · rename_i hlog
    have hlow : 2 ^ 52 ≤ m := by
      have := Nat.log2_self_le hm.ne'
      rwa [Nat.succ.inj hlog] at this
    have htoNat : (BitVec.ofNat 11 b).toNat = b := Nat.mod_eq_of_lt (by omega)
    have hfield {n : Nat} (hbn : b ≠ n) (hn : n < 2 ^ 11) :
        BitVec.ofNat 11 b ≠ BitVec.ofNat 11 n := fun h => by
      have hsame := congrArg BitVec.toNat h
      rw [htoNat, BitVec.toNat_ofNat, Nat.mod_eq_of_lt hn] at hsame
      exact hbn hsame
    have hnone : BitVec.ofNat 11 b ≠ 0#11 := hfield (by omega) (by decide)
    have hfull : BitVec.ofNat 11 b ≠ -1#11 := hfield (n := 2047) (by omega) (by decide)
    have hfraction : (BitVec.ofNat 52 m).toNat + 2 ^ 52 = m := by
      have := hc.lt
      rw [BitVec.toNat_ofNat]
      omega
    rw [exact_packComponents s _ hfull, if_neg hnone, htoNat, hfraction]
    congr 1
    omega
  · rename_i hlog
    have hshort : m < 2 ^ 52 := by
      by_contra hlong
      apply hlog
      have hle : 52 ≤ m.log2 := (Nat.le_log2 hm.ne').mpr (by omega)
      have hlt : m.log2 < 53 := (Nat.log2_lt hm.ne').mpr hc.lt
      omega
    obtain rfl : e = -1074 := hc.normal.resolve_left (by omega)
    rw [exact_packComponents s _ (by decide), if_pos rfl, BitVec.toNat_ofNat,
      Nat.mod_eq_of_lt hshort]

end CommentedCode.Double
