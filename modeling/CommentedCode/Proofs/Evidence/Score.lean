import CommentedCode.Classifier.Basic
import CommentedCode.Proofs.Double.Nearest
/-!
# Scores

Whatever the line, its score is a probability.  A line without characters scores zero, which no
threshold admits.
-/
namespace CommentedCode

open Double (IsProbability)

namespace Evidence

private theorem isProbability_probability {e : Evidence Float} (h : IsProbability e.weight)
    (line : Text) : IsProbability (e.probability .double line) :=
  (h.complement.power (e.measure line)).complement

private theorem isProbability_noisyOr {ps : List Float} (h : ∀ p ∈ ps, IsProbability p) :
    IsProbability (noisyOr .double ps) := by
  have hfold (total : Float) (ht : IsProbability total) : IsProbability (ps.foldl
      (fun total p => Arithmetic.complement .double
        (Arithmetic.double.mul (Arithmetic.complement .double total)
          (Arithmetic.complement .double p))) total) := by
    induction ps generalizing total with
    | nil => exact ht
    | cons p ps ih =>
      have hp := h p List.mem_cons_self
      exact ih (fun q hq => h q (List.mem_cons_of_mem p hq)) _
        (ht.complement.mul hp.complement).complement
  exact hfold _ ⟨rfl, rfl⟩

private theorem isProbability_combined {table : List (Evidence Float)}
    (h : ∀ e ∈ table, IsProbability e.weight) (line : Text) :
    IsProbability (combined .double table line) := by
  apply isProbability_noisyOr
  intro p hp
  obtain ⟨e, he, rfl⟩ := List.mem_map.mp hp
  exact isProbability_probability (h e he) line

private theorem isProbability_percent {n : Nat} (h : n ≤ 100) :
    IsProbability (Arithmetic.double.percent n) :=
  Double.isProbability_float h nofun

theorem isProbability_standard : ∀ e ∈ standard .double, IsProbability e.weight := by
  simp only [standard, List.forall_mem_cons, List.not_mem_nil]
  exact ⟨isProbability_percent (by decide), isProbability_percent (by decide),
    isProbability_percent (by decide), isProbability_percent (by decide),
    isProbability_percent (by decide), nofun⟩

private theorem combined_of_silent {table : List (Evidence Float)} {line : Text}
    (h : ∀ e ∈ table, e.measure line = 0) : combined .double table line = 0.0 := by
  rw [combined, probabilities, noisyOr]
  change List.foldl _ 0.0 _ = _
  induction table with
  | nil => rfl
  | cons e table ih =>
    have hsilent : e.probability .double line = 0.0 := by
      change 1.0 - Nearest.power _ (e.measure line) = 0.0
      rw [h e List.mem_cons_self, Double.power_zero]
      rfl
    rw [List.map_cons, List.foldl_cons, hsilent]
    exact ih fun f hf => h f (List.mem_cons_of_mem e hf)

theorem measure_nil : ∀ e ∈ standard .double, e.measure [] = 0 := by
  simp only [standard, List.forall_mem_cons, List.not_mem_nil]
  exact ⟨rfl, rfl, rfl, rfl, rfl, nofun⟩

end Evidence

theorem isProbability_scoreLine (line : Text) : IsProbability (scoreLine line) :=
  Evidence.isProbability_combined Evidence.isProbability_standard line

private theorem scoreLine_nil : scoreLine [] = 0.0 :=
  Evidence.combined_of_silent Evidence.measure_nil

namespace Options

theorem inRange_iff (t : Float) : inRange t = true ↔ 0.0 < t ∧ t ≤ 1.0 := by
  simp [inRange]

theorem isProbability_of_inRange {t : Float} (h : inRange t = true) : IsProbability t :=
  ⟨Double.le_of_lt ((inRange_iff t).mp h).1, ((inRange_iff t).mp h).2⟩

theorem not_le_scoreLine_nil {t : Float} (h : inRange t = true) : ¬t ≤ scoreLine [] := by
  rw [scoreLine_nil]
  exact Double.not_le_of_lt ((inRange_iff t).mp h).1

end Options
end CommentedCode
