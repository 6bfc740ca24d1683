import CommentedCode.Proofs.Decimal.Reading
import CommentedCode.Proofs.Outcome
import CommentedCode.Value.Coercion
import Mathlib.Data.List.Basic
/-!
# Coercions that settle

Coercions name what they expected; only numbers that are too large for the other kind of number
make one end otherwise.  The coercion of values for a kind is that of what the values wrap.
-/
namespace CommentedCode

private theorem Value.isWritable_int (n : Int) :
    (Value.int n).isWritable = true ↔ n.natAbs < 10 ^ digitLimit := by
  rw [isWritable, decide_eq_true_iff]

namespace Coercion

/-- A failure that names what was expected. -/
def Failure.IsNamed : Failure → Prop
  | .mistyped _ _ _ => True
  | .overflow => False

theorem settles_bool (path : Path) (v : Value) :
    Settles Failure.IsNamed (fun _ => True) (bool path v) := by
  cases v <;> trivial

theorem settles_text (path : Path) (v : Value) :
    Settles Failure.IsNamed (fun _ => True) (text path v) := by
  unfold text
  split
  · trivial
  · split <;> trivial

theorem settles_list {α : Type} {item : Path → Value → Except Failure α}
    (h : ∀ path v, Settles Failure.IsNamed (fun _ => True) (item path v)) (path : Path)
    (v : Value) : Settles Failure.IsNamed (fun _ => True) (list item path v) := by
  have heach (i : Nat) (vs : List Value) :
      Settles Failure.IsNamed (fun _ => True) (each item path i vs) := by
    induction vs generalizing i with
    | nil => trivial
    | cons v vs ih => exact (h _ v).bind fun _ _ => (ih (i + 1)).bind fun _ _ => trivial
  rw [list]
  split
  · exact heach 0 _
  · trivial

/-- Whether an integer is small enough for a floating-point number. -/
def fitsFloat : Value → Bool
  | .int n => (floatOfInt? n).isSome
  | _ => true

/-- Whether a floating-point number is finite, or none at all. -/
def fitsInt : Value → Bool
  | .float x =>
    match Binary.ofFloat x with
    | .infinite _ => false
    | _ => true
  | _ => true

theorem settles_float {v : Value} (h : fitsFloat v = true) (path : Path) :
    Settles Failure.IsNamed (fun _ => True) (float path v) := by
  unfold float
  split
  · trivial
  · rename_i n
    obtain ⟨x, hx⟩ := Option.isSome_iff_exists.mp h
    rw [hx]
    trivial
  · split <;> trivial

/-- An integer is kept; one that is made of something else is short. -/
theorem settles_int {v : Value} (h : fitsInt v = true) (path : Path) :
    Settles Failure.IsNamed (fun n => v = .int n ∨ (Value.int n).isWritable = true)
      (int path v) := by
  unfold int
  split
  · exact .inl rfl
  · rename_i x
    rw [fitsInt] at h
    split
    · rename_i hx
      rw [hx] at h
      cases h
    · split
      · rename_i hn
        exact .inr ((Value.isWritable_int _).mpr (Binary.natAbs_truncate?_lt hn))
      · trivial
  · split
    · rename_i hn
      obtain ⟨cs, -, hcs⟩ := Option.bind_eq_some_iff.mp hn
      exact .inr ((Value.isWritable_int _).mpr (Reading.natAbs_int?_lt hcs))
    · trivial

theorem float_of_not_fits {v : Value} (h : fitsFloat v = false) (path : Path) :
    float path v = .error .overflow := by
  unfold fitsFloat at h
  split at h
  · rename_i n
    have hnone : floatOfInt? n = none := by simpa using h
    rw [float, hnone]
  · cases h

theorem int_of_not_fits {v : Value} (h : fitsInt v = false) (path : Path) :
    int path v = .error .overflow := by
  unfold fitsInt at h
  split at h
  · split at h
    · rename_i hx
      rw [int, hx]
    · cases h
  · cases h

/-- The coercion for a kind makes values of what `coerced` gives. -/
structure Wraps {α : Type} (k : Kind) (coerced : Path → Value → Except Failure α)
    (wrap : α → Value) : Prop where
  injective : Function.Injective wrap
  coerce_eq : ∀ path v, coerce k path v = (coerced path v).map wrap

theorem wraps_bool : Wraps .bool bool .bool :=
  ⟨fun _ _ => Value.bool.inj, fun _ _ => rfl⟩

theorem wraps_text : Wraps .text text .text :=
  ⟨fun _ _ => Value.text.inj, fun _ _ => rfl⟩

theorem wraps_int : Wraps .int int .int :=
  ⟨fun _ _ => Value.int.inj, fun _ _ => rfl⟩

theorem wraps_float : Wraps .float float .float :=
  ⟨fun _ _ => Value.float.inj, fun _ _ => rfl⟩

theorem Wraps.list {α : Type} {k : Kind} {coerced : Path → Value → Except Failure α}
    {wrap : α → Value} (h : Wraps k coerced wrap) :
    Wraps (.list k) (list coerced) fun items => .list (items.map wrap) := by
  refine ⟨fun _ _ heq => List.map_injective_iff.mpr h.injective (Value.list.inj heq), ?_⟩
  intro path v
  have heach (vs : List Value) (i : Nat) :
      each (coerce k) path i vs = (each coerced path i vs).map (·.map wrap) := by
    induction vs generalizing i with
    | nil => rfl
    | cons v vs ih =>
      rw [each, each, ih, h.coerce_eq]
      cases coerced (path ++ [decimalDigits i]) v with
      | error e => rfl
      | ok a => cases each coerced path (i + 1) vs <;> rfl
  rw [coerce, Coercion.list, Coercion.list]
  split
  · rename_i items _
    rw [heach]
    cases each coerced path 0 items <;> rfl
  · rfl

end Coercion
end CommentedCode
