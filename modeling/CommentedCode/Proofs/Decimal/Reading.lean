import CommentedCode.Decimal.Reading
import Mathlib.Algebra.Order.Ring.Nat
/-!
# Numbers that are read

An integer that is read from a text, or cut from a floating-point number, is short enough to be
written.
-/
namespace CommentedCode

namespace Reading

theorem toNat_of_isDigit {c : Char} (h : c.isDigit = true) :
    48 ≤ c.toNat ∧ c.toNat ≤ 57 := by
  simpa [Char.isDigit, UInt32.le_iff_toNat_le] using h

private theorem digitsValue_lt {digits : Text} (h : ∀ c ∈ digits, c.isDigit = true) :
    digitsValue 10 digits < 10 ^ digits.length := by
  have hfold (front k : Nat) (hfront : front < 10 ^ k) :
      digits.foldl (fun n c => n * 10 + c.toNat - '0'.toNat) front < 10 ^ (k + digits.length) := by
    induction digits generalizing front k with
    | nil => exact hfront
    | cons c digits ih =>
      have hc := toNat_of_isDigit (h c List.mem_cons_self)
      have hnext : front * 10 + c.toNat - '0'.toNat < 10 ^ (k + 1) := by
        change front * 10 + c.toNat - 48 < _
        rw [pow_succ]
        omega
      have hrest := ih (fun d hd => h d (List.mem_cons_of_mem c hd)) _ _ hnext
      rwa [Nat.add_assoc, Nat.add_comm 1] at hrest
  have hall := hfold 0 0 (by decide)
  rwa [Nat.zero_add] at hall

theorem natAbs_int?_lt {cs : Text} {n : Int} (h : int? cs = some n) :
    n.natAbs < 10 ^ digitLimit := by
  rw [int?] at h
  split at h
  rename_i negative rest _
  split at h
  · rename_i digits _
    split at h
    · rename_i hread
      simp only [Bool.and_eq_true, decide_eq_true_eq, List.all_eq_true] at hread
      have hvalue := (digitsValue_lt hread.1.2).trans_le (Nat.pow_le_pow_right (by decide) hread.2)
      obtain rfl := Option.some.inj h
      cases negative <;> simpa using hvalue
    · cases h
  · cases h

end Reading

namespace Binary

private theorem bounds {bits : Nat} {negative : Bool} {m : Nat} {e : Int}
    (h : ofBits bits = .finite negative m e) : m < 2 ^ 53 ∧ e ≤ 971 := by
  have hfield : bits / 2 ^ 52 % 2 ^ 11 < 2 ^ 11 := Nat.mod_lt _ (Nat.two_pow_pos 11)
  have hfraction : bits % 2 ^ 52 < 2 ^ 52 := Nat.mod_lt _ (Nat.two_pow_pos 52)
  simp only [ofBits] at h
  split at h
  · split at h <;> cases h
  · split at h
    · obtain ⟨-, rfl, rfl⟩ := Binary.finite.inj h
      omega
    · obtain ⟨-, rfl, rfl⟩ := Binary.finite.inj h
      omega

private theorem size_lt {bits : Nat} {negative : Bool} {m : Nat} {e : Int}
    (h : ofBits bits = .finite negative m e) : m * 2 ^ e.toNat < 10 ^ digitLimit := by
  obtain ⟨hm, he⟩ := bounds h
  have hbits : 53 + e.toNat ≤ digitLimit := by
    rw [digitLimit]
    omega
  calc m * 2 ^ e.toNat < 2 ^ 53 * 2 ^ e.toNat :=
        Nat.mul_lt_mul_of_pos_right hm (Nat.two_pow_pos _)
    _ = 2 ^ (53 + e.toNat) := (pow_add ..).symm
    _ ≤ 10 ^ (53 + e.toNat) := Nat.pow_le_pow_left (by decide) _
    _ ≤ 10 ^ digitLimit := Nat.pow_le_pow_right (by decide) hbits

/-- An integer that is cut from a floating-point number is not too long. -/
theorem natAbs_truncate?_lt {bits : Nat} {n : Int} (h : (ofBits bits).truncate? = some n) :
    n.natAbs < 10 ^ digitLimit := by
  cases hb : ofBits bits with
  | finite negative m e =>
    rw [hb] at h
    obtain rfl := Option.some.inj h
    have hsize : m * 2 ^ e.toNat / 2 ^ (-e).toNat < 10 ^ digitLimit :=
      (Nat.div_le_self _ _).trans_lt (size_lt hb)
    generalize m * 2 ^ e.toNat / 2 ^ (-e).toNat = size at hsize
    cases negative <;> simpa using hsize
  | infinite negative =>
    rw [hb] at h
    cases h
  | nan =>
    rw [hb] at h
    cases h

end Binary
end CommentedCode
