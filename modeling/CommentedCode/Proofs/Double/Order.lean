import Mathlib
/-!
# The order of doubles

Doubles compare by class, exponent and mantissa, and what is no number compares with nothing.
So the comparison is transitive, though it is not reflexive.
-/
namespace CommentedCode.Double

open Float.Model (UnpackedFloat)

/-- Where a number stands: its class, then its exponent and its mantissa. -/
def place? : UnpackedFloat → Option (Int ×ₗ Int ×ₗ Int)
  | .notANumber => none
  | .infinity .negative => some (toLex (-2, toLex (0, 0)))
  | .finite .negative m e _ => some (toLex (-1, toLex (-e, -m)))
  | .zero _ => some (toLex (0, toLex (0, 0)))
  | .finite .positive m e _ => some (toLex (1, toLex (e, m)))
  | .infinity .positive => some (toLex (2, toLex (0, 0)))

private theorem isLE_then_iff (e f : Int) (m n : Nat) :
    ((compare e f).then (compare m n)).isLE = true ↔ e < f ∨ e = f ∧ m ≤ n := by
  rcases lt_trichotomy e f with h | h | h
  · simp [compare_lt_iff_lt.mpr h, h]
  · simp [h, Nat.isLE_compare]
  · simp [compare_gt_iff_gt.mpr h, h.ne', not_lt.mpr h.le]

private theorem isGE_then_iff (e f : Int) (m n : Nat) :
    ((compare e f).then (compare m n)).isGE = true ↔ f < e ∨ e = f ∧ n ≤ m := by
  rcases lt_trichotomy e f with h | h | h
  · simp [compare_lt_iff_lt.mpr h, h.ne, not_lt.mpr h.le]
  · simp [h, Nat.isGE_compare]
  · simp [compare_gt_iff_gt.mpr h, h]

theorem le_iff_place (a b : UnpackedFloat) :
    a.le b = true ↔ ∃ p ∈ place? a, ∃ q ∈ place? b, p ≤ q := by
  rcases a with s | _ | s | ⟨s, m, e, _⟩ <;> rcases b with t | _ | t | ⟨t, n, f, _⟩
  case infinity.infinity =>
    cases s <;> cases t <;>
      simp [UnpackedFloat.le, UnpackedFloat.compare, place?, Prod.Lex.toLex_le_toLex] <;> rfl
  case finite.finite =>
    cases s <;> cases t <;>
      simp [UnpackedFloat.le, UnpackedFloat.compare, place?, Prod.Lex.toLex_le_toLex,
        isLE_then_iff, isGE_then_iff]
  all_goals
    (try cases s) <;> (try cases t) <;>
      simp [UnpackedFloat.le, UnpackedFloat.compare, place?, Prod.Lex.toLex_le_toLex]

private theorem eq_lt_then_iff (e f : Int) (m n : Nat) :
    (compare e f).then (compare m n) = .lt ↔ e < f ∨ e = f ∧ m < n := by
  rcases lt_trichotomy e f with h | h | h
  · simp [compare_lt_iff_lt.mpr h, h]
  · simp [h, compare_lt_iff_lt]
  · simp [compare_gt_iff_gt.mpr h, h.ne', not_lt.mpr h.le]

private theorem eq_gt_then_iff (e f : Int) (m n : Nat) :
    (compare e f).then (compare m n) = .gt ↔ f < e ∨ e = f ∧ n < m := by
  rcases lt_trichotomy e f with h | h | h
  · simp [compare_lt_iff_lt.mpr h, h.ne, not_lt.mpr h.le]
  · simp [h, compare_gt_iff_gt]
  · simp [compare_gt_iff_gt.mpr h, h]

theorem lt_iff_place (a b : UnpackedFloat) :
    a.lt b = true ↔ ∃ p ∈ place? a, ∃ q ∈ place? b, p < q := by
  rcases a with s | _ | s | ⟨s, m, e, _⟩ <;> rcases b with t | _ | t | ⟨t, n, f, _⟩
  case infinity.infinity =>
    cases s <;> cases t <;>
      simp [UnpackedFloat.lt, UnpackedFloat.compare, place?, Prod.Lex.toLex_lt_toLex]
    rfl
  case finite.finite =>
    cases s <;> cases t <;>
      simp [UnpackedFloat.lt, UnpackedFloat.compare, place?, Prod.Lex.toLex_lt_toLex,
        eq_lt_then_iff, eq_gt_then_iff]
  all_goals
    (try cases s) <;> (try cases t) <;>
      simp [UnpackedFloat.lt, UnpackedFloat.compare, place?, Prod.Lex.toLex_lt_toLex]

theorem le_iff (x y : Float) : x ≤ y ↔ x.toModel.unpack.le y.toModel.unpack = true := by
  change decide (x.toModel.unpack.le y.toModel.unpack = true) = true ↔ _
  simp

instance isTrans_le : IsTrans Float (· ≤ ·) where
  trans x y z hxy hyz := by
    obtain ⟨p, hp, q, hq, hpq⟩ := (le_iff_place _ _).mp ((le_iff x y).mp hxy)
    obtain ⟨q', hq', r, hr, hqr⟩ := (le_iff_place _ _).mp ((le_iff y z).mp hyz)
    obtain rfl : q = q' := Option.mem_unique hq hq'
    exact (le_iff x z).mpr ((le_iff_place _ _).mpr ⟨p, hp, r, hr, hpq.trans hqr⟩)

theorem lt_iff (x y : Float) : x < y ↔ x.toModel.unpack.lt y.toModel.unpack = true := by
  change decide (x.toModel.unpack.lt y.toModel.unpack = true) = true ↔ _
  simp

private theorem lt_place {x y : Float} (h : x < y) :
    ∃ p ∈ place? x.toModel.unpack, ∃ q ∈ place? y.toModel.unpack, p < q :=
  (lt_iff_place _ _).mp ((lt_iff x y).mp h)

theorem le_of_lt {x y : Float} (h : x < y) : x ≤ y := by
  obtain ⟨p, hp, q, hq, hpq⟩ := lt_place h
  exact (le_iff x y).mpr ((le_iff_place _ _).mpr ⟨p, hp, q, hq, hpq.le⟩)

theorem not_le_of_lt {x y : Float} (h : x < y) : ¬y ≤ x := by
  intro hle
  obtain ⟨p, hp, q, hq, hpq⟩ := lt_place h
  obtain ⟨q', hq', p', hp', hqp⟩ := (le_iff_place _ _).mp ((le_iff y x).mp hle)
  obtain rfl : p = p' := Option.mem_unique hp hp'
  obtain rfl : q = q' := Option.mem_unique hq hq'
  exact absurd hqp (not_le.mpr hpq)

end CommentedCode.Double
