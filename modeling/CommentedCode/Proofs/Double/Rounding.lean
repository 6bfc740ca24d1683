import Mathlib
/-!
# Rounding between zero and one

A double that lies between zero and one is kept as a mantissa and an exponent in one canonical
way.  Rounding to the nearest double does not pass one, so that what was between zero and one
stays there.
-/
namespace CommentedCode.Double

open Float.Model (Format UnpackedFloat totalExponent)
open Float.Model.UnpackedFloat

/-- `m · 2 ^ e` is at most one. -/
def AtMostOne (m : Nat) (e : Int) : Prop :=
  e ≤ 0 ∧ m ≤ 2 ^ (-e).toNat

/-- A mantissa and an exponent in the way in which doubles keep them. -/
structure Canonical (m : Nat) (e : Int) : Prop where
  lt : m < 2 ^ 53
  least : -1074 ≤ e
  normal : 2 ^ 52 ≤ m ∨ e = -1074

/-- The numbers from zero to one. -/
inductive InUnit : UnpackedFloat → Prop
  | zero (s : Sign) : InUnit (.zero s)
  | finite {m : Nat} {e : Int} (hm : 0 < m) :
      Canonical m e → AtMostOne m e → InUnit (.finite .positive m e hm)

/-- The exponent that `m · 2 ^ e` is rounded to. -/
def target (m : Nat) (e : Int) : Int :=
  max (m.log2 + e - 52) (-1074)

private theorem targetExponent_eq (m : Nat) (e : Int) :
    Format.binary64.targetExponent (totalExponent m e) = target m e := by
  simp only [Format.targetExponent, totalExponent, Format.mantissaBits, Format.minExponent, target]
  norm_num
  omega

/-- `m / 2 ^ k`, rounded to the nearest natural number. -/
def shifted (m k : Nat) : Nat :=
  (ExtendedMantissa.mk m false false >>> k).roundedMantissa

private theorem mantissa_shift (em : ExtendedMantissa) (k : Nat) :
    (em >>> k).mantissa = em.mantissa / 2 ^ k := by
  induction k with
  | zero => exact (Nat.div_one _).symm
  | succ k ih =>
    change (em >>> k).mantissa / 2 = _
    rw [ih, Nat.div_div_eq_div_mul, pow_succ]

private theorem shift_exact (m k : Nat) :
    ExtendedMantissa.mk (m * 2 ^ k) false false >>> k = ExtendedMantissa.mk m false false := by
  induction k generalizing m with
  | zero => rw [pow_zero, Nat.mul_one]; rfl
  | succ k ih =>
    change ExtendedMantissa.shiftRightOne (ExtendedMantissa.mk _ false false >>> k) = _
    rw [pow_succ', ← Nat.mul_assoc, ih]
    simp [ExtendedMantissa.shiftRightOne]

private theorem roundedMantissa_bounds (em : ExtendedMantissa) :
    em.mantissa ≤ em.roundedMantissa ∧ em.roundedMantissa ≤ em.mantissa + 1 := by
  rw [ExtendedMantissa.roundedMantissa]
  rcases em.accuracy with _ | (_ | _ | _) <;> dsimp only [Accuracy.roundToNearestEven] <;> omega

private theorem shifted_le {m k n : Nat} (h : m ≤ n * 2 ^ k) : shifted m k ≤ n := by
  have hle : m / 2 ^ k ≤ n := Nat.div_le_of_le_mul (by rwa [Nat.mul_comm])
  rcases hle.lt_or_eq with hlt | heq
  · have hr := (roundedMantissa_bounds (ExtendedMantissa.mk m false false >>> k)).2
    rw [mantissa_shift] at hr
    exact hr.trans hlt
  · have hm : m = n * 2 ^ k := Nat.le_antisymm h (heq ▸ Nat.div_mul_le_self m (2 ^ k))
    rw [shifted, hm, shift_exact]
    exact le_rfl

private theorem le_shifted {m k n : Nat} (h : n * 2 ^ k ≤ m) : n ≤ shifted m k := by
  have hr := (roundedMantissa_bounds (ExtendedMantissa.mk m false false >>> k)).1
  rw [mantissa_shift] at hr
  exact ((Nat.le_div_iff_mul_le (Nat.two_pow_pos k)).mpr h).trans hr

private theorem shiftToTarget_exact (m : Nat) (e : Int) :
    shiftToTargetExponent Format.binary64 m e .exact =
      (ExtendedMantissa.mk m false false >>> (target m e - e).toNat,
        e + (target m e - e).toNat) := by
  rw [shiftToTargetExponent, targetExponent_eq]
  rfl

private theorem log2_lt {m n : Nat} (h : m < 2 ^ (n + 1)) : m.log2 ≤ n := by
  by_cases hm : m = 0
  · simp [hm]
  · exact Nat.le_of_lt_succ ((Nat.log2_lt hm).mpr h)

private theorem target_le {m : Nat} {e : Int} (h : m < 2 ^ 53) (he : -1074 ≤ e) :
    target m e ≤ e := by
  have hlog : m.log2 ≤ 52 := log2_lt h
  rw [target]
  omega

private theorem shiftToTarget_rounded {r : Nat} {t : Int} (hr : r ≤ 2 ^ 53) (ht : -1074 ≤ t) :
    shiftToTargetExponent Format.binary64 r t .exact =
      if r < 2 ^ 53 then (ExtendedMantissa.mk r false false, t)
      else (ExtendedMantissa.mk (2 ^ 52) false false, t + 1) := by
  rcases hr.lt_or_eq with hlt | rfl
  · have hstay : (target r t - t).toNat = 0 := by
      have := target_le hlt ht
      omega
    rw [shiftToTarget_exact, hstay, if_pos hlt, Int.natCast_zero, Int.add_zero]
    rfl
  · have hmove : (target (2 ^ 53) t - t).toNat = 1 := by
      rw [target, Nat.log2_two_pow]
      omega
    rw [shiftToTarget_exact, hmove]
    rfl

theorem roundWithAccuracy_eq {m : Nat} {e : Int} (ht : e ≤ target m e)
    (hr : shifted m (target m e - e).toNat ≤ 2 ^ 53) :
    roundWithAccuracy Format.binary64 .positive m e .exact =
      let r := shifted m (target m e - e).toNat
      if h : r = 0 then .zero .positive
      else if r < 2 ^ 53 then .finite .positive r (target m e) (Nat.pos_of_ne_zero h)
      else .finite .positive (2 ^ 52) (target m e + 1) (Nat.two_pow_pos 52) := by
  have hsum : e + ((target m e - e).toNat : Int) = target m e := by omega
  have hround : (ExtendedMantissa.mk m false false >>> (target m e - e).toNat).roundedMantissa =
      shifted m (target m e - e).toNat := rfl
  have hleast : -1074 ≤ target m e := Int.le_max_right _ _
  have hsecond := shiftToTarget_rounded hr hleast
  by_cases hlt : shifted m (target m e - e).toNat < 2 ^ 53
  · simp only [roundWithAccuracy, shiftToTarget_exact m e, hsum, hround, hsecond, hlt, if_true]
  · have hne : shifted m (target m e - e).toNat ≠ 0 := by omega
    simp only [roundWithAccuracy, shiftToTarget_exact m e, hsum, hround, hsecond, hlt, hne,
      if_false, (Nat.two_pow_pos 52).ne']

/-- A mantissa that is shifted to its target has one bit too many at most. -/
theorem shifted_target_le (m : Nat) (e : Int) :
    shifted m (target m e - e).toNat ≤ 2 ^ 53 := by
  apply shifted_le
  have hlt : m < 2 ^ (m.log2 + 1) := Nat.lt_log2_self
  have hbits : m.log2 + 1 ≤ 53 + (target m e - e).toNat := by
    rw [target]
    omega
  rw [← pow_add]
  exact hlt.le.trans (Nat.pow_le_pow_right (by decide) hbits)

theorem roundWithAccuracy_inUnit {m : Nat} {e : Int} (hm : 0 < m) (h : AtMostOne m e)
    (ht : e ≤ target m e) :
    InUnit (roundWithAccuracy Format.binary64 .positive m e .exact) := by
  obtain ⟨he, hone⟩ := h
  have hleast : -1074 ≤ target m e := Int.le_max_right _ _
  have hlog : m.log2 ≤ (-e).toNat := by
    have hpow := (Nat.log2_self_le hm.ne').trans hone
    exact (Nat.pow_le_pow_iff_right (by decide)).mp hpow
  have htop : target m e ≤ -52 := by
    rw [target]
    omega
  have hfits := shifted_target_le m e
  have hbound : shifted m (target m e - e).toNat ≤ 2 ^ (-target m e).toNat := by
    apply shifted_le
    have hsum : (-e).toNat = (-target m e).toNat + (target m e - e).toNat := by omega
    rwa [← pow_add, ← hsum]
  have hnormal : 2 ^ 52 ≤ shifted m (target m e - e).toNat ∨ target m e = -1074 := by
    by_cases hlow : target m e = -1074
    · exact Or.inr hlow
    · refine Or.inl (le_shifted ?_)
      have hbits : 52 + (target m e - e).toNat = m.log2 := by
        rw [target] at hlow ht ⊢
        omega
      rw [← pow_add, hbits]
      exact Nat.log2_self_le hm.ne'
  rw [roundWithAccuracy_eq ht hfits]
  dsimp only
  split
  · exact .zero _
  · split
    · rename_i hlt
      exact .finite _ ⟨hlt, hleast, hnormal⟩ ⟨by omega, hbound⟩
    · -- the mantissa was rounded up to the power of two above it
      have hpow : 2 ^ 53 ≤ 2 ^ (-target m e).toNat := by omega
      have hbits : 53 ≤ (-target m e).toNat := (Nat.pow_le_pow_iff_right (by decide)).mp hpow
      refine .finite _ ⟨by decide, by omega, Or.inl le_rfl⟩ ⟨by omega, ?_⟩
      exact Nat.pow_le_pow_right (by decide) (by omega)

theorem exists_round_eq {m : Nat} (hm : 0 < m) (e : Int) :
    ∃ k : Nat, e - k ≤ target (m * 2 ^ k) (e - k) ∧
      UnpackedFloat.round Format.binary64 .positive m e =
        roundWithAccuracy Format.binary64 .positive (m * 2 ^ k) (e - k) .exact := by
  refine ⟨(e - target m e).toNat, ?_, ?_⟩
  · generalize hk : (e - target m e).toNat = k
    have hpos : 0 < m * 2 ^ k := Nat.mul_pos hm (Nat.two_pow_pos k)
    have hlog : (m * 2 ^ k).log2 = m.log2 + k := by
      rw [Nat.log2_eq_iff hpos.ne', pow_add, pow_succ, pow_add]
      have hle := Nat.log2_self_le hm.ne'
      have hlt : m < 2 ^ (m.log2 + 1) := Nat.lt_log2_self
      refine ⟨Nat.mul_le_mul_right _ hle, ?_⟩
      rw [Nat.mul_right_comm, ← pow_succ]
      exact Nat.mul_lt_mul_of_pos_right hlt (Nat.two_pow_pos k)
    rw [target, hlog]
    rw [target] at hk
    omega
  · rw [UnpackedFloat.round, targetExponent_eq]
    dsimp only [decreaseExponent]
    rw [Nat.shiftLeft_eq]

theorem AtMostOne.shift {m : Nat} {e : Int} (h : AtMostOne m e) (k : Nat) :
    AtMostOne (m * 2 ^ k) (e - k) := by
  obtain ⟨he, hone⟩ := h
  refine ⟨by omega, ?_⟩
  have hsum : (-(e - k)).toNat = (-e).toNat + k := by omega
  rw [hsum, pow_add]
  exact Nat.mul_le_mul_right _ hone

/-- Rounding stays between zero and one, also where the mantissa is short. -/
theorem round_inUnit {m : Nat} {e : Int} (hm : 0 < m) (h : AtMostOne m e) :
    InUnit (UnpackedFloat.round Format.binary64 .positive m e) := by
  obtain ⟨k, hk, heq⟩ := exists_round_eq hm e
  rw [heq]
  exact roundWithAccuracy_inUnit (Nat.mul_pos hm (Nat.two_pow_pos k)) (h.shift k) hk

end CommentedCode.Double
