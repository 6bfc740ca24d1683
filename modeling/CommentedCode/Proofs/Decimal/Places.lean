import CommentedCode.Proofs.Decimal.Shortest
import CommentedCode.Proofs.Double.Value
import CommentedCode.Report.Message
/-!
# Two places of a probability

The shortest decimal of a probability lies in its rounding interval, so it is at most two.  Such a
decimal can be given to two places.
-/
namespace CommentedCode

private theorem Shortest.shortest_le_two {m : Nat} {e : Int} (hm : 0 < m)
    (hc : Double.Canonical m e) (h : Double.AtMostOne m e) : shortest m e ≤ 2 := by
  have hone : (m * 2 ^ e : ℚ) ≤ 1 := (Double.atMostOne_iff_value hm).mp h
  have hunit : (2 ^ e : ℚ) ≤ m * 2 ^ e :=
    le_mul_of_one_le_left (zpow_nonneg (by norm_num) e) (Nat.one_le_cast.mpr hm)
  have hquarter : (2 : ℚ) ^ e = 4 * 2 ^ (e - 2) := by
    rw [zpow_sub₀ two_ne_zero]
    ring
  have hupper := (shortest_mem hm hc).2
  rw [hquarter] at hone hunit
  linarith

private theorem Decimal.isSome_twoPlaces? {d : Decimal} (h : d.size ≤ 2) : d.twoPlaces?.isSome := by
  have hsize : d.hundredths ≤ 201 := by
    rw [hundredths_eq]
    apply Nat.floor_le_of_le
    push_cast
    linarith
  rw [twoPlaces?_eq, if_pos (by omega)]
  rfl

private theorem Value.isSome_twoPlaces? {x : Float} (h : Double.IsProbability x) :
    (Value.float x).twoPlaces?.isSome := by
  change (Numeral.ofBinary (.ofFloat x)).twoPlaces?.isSome
  rw [Double.ofFloat_eq_exact]
  have hunit := (Double.isProbability_iff x).mp h
  generalize x.toModel.unpack = u at hunit ⊢
  cases hunit with
  | zero s =>
    apply Decimal.isSome_twoPlaces?
    simp [Decimal.size, Shortest.digits]
  | finite hm hc hone => exact Decimal.isSome_twoPlaces? (Shortest.shortest_le_two hm hc hone)

/-- The message about a probability can be written, for settings whose threshold is in range. -/
theorem Message.isSome_text? {s : Settings} (hs : Double.IsProbability s.threshold) {p : Float}
    (hp : Double.IsProbability p) (startLine endLine : Int) :
    (text? s startLine endLine (.float p)).isSome := by
  obtain ⟨shown, hshown⟩ := Option.isSome_iff_exists.mp (Value.isSome_twoPlaces? hp)
  obtain ⟨threshold, hthreshold⟩ := Option.isSome_iff_exists.mp (Value.isSome_twoPlaces? hs)
  rw [text?, hshown, hthreshold]
  rfl

end CommentedCode
