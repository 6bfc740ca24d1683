import CommentedCode.Proofs.Double.Encoding
import CommentedCode.Proofs.Double.Order
/-!
# Probabilities

Doubles from zero to one: what is left of one, products and powers of them lie between zero and
one again, and so does the double nearest to a proper fraction.
-/
namespace CommentedCode.Double

open Float.Model (Format UnpackedFloat)
open Float.Model.UnpackedFloat

/-- A double from zero to one. -/
def IsProbability (x : Float) : Prop :=
  0.0 ≤ x ∧ x ≤ 1.0

private theorem unpack_zero : (0.0 : Float).toModel.unpack = .zero .positive := rfl

private theorem unpack_one :
    (1.0 : Float).toModel.unpack = .finite .positive (2 ^ 52) (-52) (by decide) := rfl

theorem atMostOne_iff {m : Nat} {e : Int} (h : Canonical m e) (hm : 0 < m) :
    AtMostOne m e ↔ e < -52 ∨ e = -52 ∧ m ≤ 2 ^ 52 := by
  obtain ⟨hlt, hleast, hnormal⟩ := h
  constructor
  · intro ⟨he, hone⟩
    by_contra hnot
    have hhigh : -52 < e ∨ e = -52 ∧ 2 ^ 52 < m := by omega
    rcases hhigh with hhigh | ⟨rfl, hhigh⟩
    · have hpow : 2 ^ (-e).toNat < 2 ^ 52 := Nat.pow_lt_pow_right (by decide) (by omega)
      omega
    · exact absurd hone (by simpa using hhigh)
  · rintro (hlow | ⟨rfl, hle⟩)
    · refine ⟨by omega, hlt.le.trans ?_⟩
      exact Nat.pow_le_pow_right (by decide) (by omega)
    · exact ⟨by decide, by simpa using hle⟩

private theorem le_one_iff {m : Nat} {e : Int} (hm : 0 < m) :
    (UnpackedFloat.finite .positive m e hm).le (.finite .positive (2 ^ 52) (-52) (by decide)) =
      true ↔ e < -52 ∨ e = -52 ∧ m ≤ 2 ^ 52 := by
  rw [le_iff_place]
  simp only [place?, Option.mem_def, Option.some.injEq, exists_eq_left', Prod.Lex.toLex_le_toLex,
    lt_self_iff_false, true_and, false_or]
  norm_cast

theorem isProbability_iff (x : Float) : IsProbability x ↔ InUnit x.toModel.unpack := by
  rw [IsProbability, le_iff, le_iff, unpack_zero, unpack_one]
  generalize hu : x.toModel.unpack = u
  rcases u with s | _ | s | ⟨s, m, e, hm⟩
  case infinity =>
    refine ⟨fun h => ?_, nofun⟩
    cases s
    · exact absurd h.1 (by decide)
    · exact absurd h.2 (by decide)
  case notANumber => exact ⟨fun h => absurd h.1 (by decide), nofun⟩
  case zero => exact ⟨fun _ => .zero s, fun _ => ⟨rfl, rfl⟩⟩
  case finite =>
    have hc : Canonical m e := canonical_unpack _ hu
    cases s
    case negative => exact ⟨fun h => absurd h.1 Bool.false_ne_true, nofun⟩
    case positive =>
      rw [le_one_iff, ← atMostOne_iff hc hm]
      refine ⟨fun h => .finite hm hc h.2, fun h => ⟨rfl, ?_⟩⟩
      cases h with
      | finite _ _ hone => exact hone

theorem unpack_pack_inUnit {u : UnpackedFloat} (h : InUnit u) :
    unpack Format.binary64 (pack Format.binary64 u) = u := by
  cases h with
  | zero s => exact unpack_pack_zero s
  | finite hm hc hone =>
    have he : _ ≤ (971 : Int) := hone.1.trans (by decide)
    exact unpack_pack_finite .positive hm hc he

theorem IsProbability.of_pack {u : UnpackedFloat} (h : InUnit u) :
    IsProbability ⟨.pack u⟩ := by
  rw [isProbability_iff]
  change InUnit (unpack Format.binary64 (pack Format.binary64 u))
  rw [unpack_pack_inUnit h]
  exact h

/-- A product is never too short: either a factor is as small as can be, or both are long. -/
theorem product_le_target {m n : Nat} {e f : Int} (hm : 0 < m) (hn : 0 < n) (hc : Canonical m e)
    (hd : Canonical n f) (h : AtMostOne m e) (g : AtMostOne n f) :
    e + f ≤ target (m * n) (e + f) := by
  have he := h.1
  have hf := g.1
  rw [target]
  rcases hc.normal with hlong | rfl
  · rcases hd.normal with hlong' | rfl
    · have hprod : 2 ^ 52 * 2 ^ 52 ≤ m * n := Nat.mul_le_mul hlong hlong'
      rw [← pow_add] at hprod
      have hlog : 104 ≤ (m * n).log2 := (Nat.le_log2 (Nat.mul_pos hm hn).ne').mpr hprod
      omega
    · omega
  · omega

theorem mul_inUnit {a b : UnpackedFloat} (ha : InUnit a) (hb : InUnit b) :
    InUnit (a.mul Format.binary64 b) := by
  cases ha with
  | zero s => cases hb <;> exact .zero _
  | @finite m e hm hc h =>
    cases hb with
    | zero s => exact .zero _
    | @finite n f hn hd g =>
      have hbits : (-(e + f)).toNat = (-e).toNat + (-f).toNat := by
        have := h.1
        have := g.1
        omega
      have hone : AtMostOne (m * n) (e + f) := by
        refine ⟨Int.add_nonpos h.1 g.1, ?_⟩
        rw [hbits, pow_add]
        exact Nat.mul_le_mul h.2 g.2
      exact roundWithAccuracy_inUnit (Nat.mul_pos hm hn) hone
        (product_le_target hm hn hc hd h g)

private theorem normalize_inUnit {d e : Int} (hd : 0 ≤ d) (h : AtMostOne d.toNat e) :
    InUnit (UnpackedFloat.normalize Format.binary64 d e .positive) := by
  unfold UnpackedFloat.normalize
  split
  · rename_i hlt
    exact absurd (compare_lt_iff_lt.mp hlt) (not_lt.mpr hd)
  · exact .zero _
  · rename_i hgt
    have hpos : 0 < d := compare_gt_iff_gt.mp hgt
    exact round_inUnit (by omega) h

/-- One, as it is unpacked. -/
abbrev unit : UnpackedFloat :=
  .finite .positive (2 ^ 52) (-52) (by decide)

theorem one_sub_finite {m : Nat} {e : Int} (hm : 0 < m) (he : e ≤ -52) :
    UnpackedFloat.sub Format.binary64 unit (.finite .positive m e hm) =
      UnpackedFloat.normalize Format.binary64 ((2 ^ (-e).toNat : Nat) - (m : Int)) e .positive := by
  have hwhole : (2 ^ 52) <<< (-52 - e).toNat = 2 ^ (-e).toNat := by
    rw [Nat.shiftLeft_eq, ← pow_add]
    congr 1
    omega
  change UnpackedFloat.normalize Format.binary64
    (((2 ^ 52) <<< (-52 - min (-52) e).toNat : Nat) - (m <<< (e - min (-52) e).toNat : Nat) : Int)
    (min (-52) e) .positive = _
  rw [min_eq_right he, hwhole, Int.sub_self]
  rfl

theorem one_sub_inUnit {a : UnpackedFloat} (ha : InUnit a) :
    InUnit (UnpackedFloat.sub Format.binary64 unit a) := by
  cases ha with
  | zero s =>
    exact .finite _ ⟨by decide, by decide, Or.inl le_rfl⟩ ⟨by decide, by decide⟩
  | @finite m e hm hc h =>
    have he : e ≤ -52 := by
      have := (atMostOne_iff hc hm).mp h
      omega
    rw [one_sub_finite hm he]
    refine normalize_inUnit (Int.sub_nonneg_of_le (Int.ofNat_le.mpr h.2)) ⟨h.1, ?_⟩
    rw [Int.toNat_sub]
    exact Nat.sub_le _ _

theorem IsProbability.mul {x y : Float} (hx : IsProbability x) (hy : IsProbability y) :
    IsProbability (x * y) :=
  .of_pack (mul_inUnit ((isProbability_iff x).mp hx) ((isProbability_iff y).mp hy))

theorem IsProbability.complement {x : Float} (hx : IsProbability x) :
    IsProbability (1.0 - x) :=
  .of_pack (one_sub_inUnit ((isProbability_iff x).mp hx))

end CommentedCode.Double
