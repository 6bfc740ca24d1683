import CommentedCode.Report.Notice
import Mathlib.Data.List.Forall2
import Mathlib.Data.List.Nodup
import Mathlib.Data.List.Sort
/-!
# Outcomes

A computation that may fail settles if it gives a result or an error of an expected kind.  More is
said where a condition decides which of the two it is.  Outcomes that come in any order are sorted
by number, and where the numbers differ there is only one order.
-/
namespace CommentedCode

theorem map_ok {ε α β : Type} {f : α → β} {x : Except ε α} {b : β}
    (h : x.map f = .ok b) : ∃ a, x = .ok a ∧ f a = b := by
  cases x with
  | error e => cases h
  | ok a => exact ⟨a, rfl, Except.ok.inj h⟩

theorem bind_ok {ε α β : Type} {x : Except ε α} {f : α → Except ε β} {b : β} :
    x >>= f = .ok b ↔ ∃ a, x = .ok a ∧ f a = .ok b := by
  cases x with
  | error e => exact ⟨nofun, nofun⟩
  | ok a => exact ⟨fun h => ⟨a, rfl, h⟩, fun ⟨_, ha, h⟩ => Except.ok.inj ha ▸ h⟩

theorem bind_error {ε α β : Type} {x : Except ε α} {f : α → Except ε β} {e : ε} :
    x >>= f = .error e ↔ x = .error e ∨ ∃ a, x = .ok a ∧ f a = .error e := by
  cases x with
  | error failure =>
    constructor
    · intro h
      exact .inl (congrArg Except.error (Except.error.inj h))
    · intro h
      rcases h with hx | ⟨a, ha, -⟩
      · exact congrArg Except.error (Except.error.inj hx)
      · cases ha
  | ok a => exact ⟨fun h => .inr ⟨a, rfl, h⟩, fun h => h.elim nofun fun ⟨_, ha, h⟩ =>
      Except.ok.inj ha ▸ h⟩

theorem mapError_ok {ε δ α : Type} {f : ε → δ} {x : Except ε α} {a : α} :
    x.mapError f = .ok a ↔ x = .ok a := by
  cases x <;> simp only [Except.mapError, reduceCtorEq, Except.ok.injEq]

theorem map_injective {ε α β : Type} {f : α → β} (hf : Function.Injective f) :
    Function.Injective (Except.map f : Except ε α → Except ε β) := by
  intro x y h
  cases x <;> cases y <;> simp_all [Except.map, hf.eq_iff]

private theorem mapM_cons_ok {ε α β : Type} {f : α → Except ε β} {a : α} {as : List α}
    {all : List β} : (a :: as).mapM f = .ok all ↔
      ∃ b bs, f a = .ok b ∧ as.mapM f = .ok bs ∧ all = b :: bs := by
  rw [List.mapM_cons]
  change (f a >>= fun b => as.mapM f >>= fun bs => .ok (b :: bs)) = _ ↔ _
  simp only [bind_ok, Except.ok.injEq, exists_and_left, eq_comm (a := all)]

theorem exists_of_mapM_ok {ε α β : Type} {f : α → Except ε β} {as : List α} {all : List β}
    (h : as.mapM f = .ok all) {a : α} (ha : a ∈ as) : ∃ b ∈ all, f a = .ok b := by
  induction as generalizing all with
  | nil => cases ha
  | cons first as ih =>
    obtain ⟨b, bs, hfirst, hrest, rfl⟩ := mapM_cons_ok.mp h
    rcases List.mem_cons.mp ha with rfl | ha
    · exact ⟨b, List.mem_cons_self, hfirst⟩
    · obtain ⟨found, hfound, hf⟩ := ih hrest ha
      exact ⟨found, List.mem_cons_of_mem b hfound, hf⟩

theorem exists_of_mem_mapM_ok {ε α β : Type} {f : α → Except ε β} {as : List α} {all : List β}
    (h : as.mapM f = .ok all) {b : β} (hb : b ∈ all) : ∃ a ∈ as, f a = .ok b := by
  induction as generalizing all with
  | nil =>
    obtain rfl := Except.ok.inj h
    cases hb
  | cons first as ih =>
    obtain ⟨found, bs, hfirst, hrest, rfl⟩ := mapM_cons_ok.mp h
    rcases List.mem_cons.mp hb with rfl | hb
    · exact ⟨first, List.mem_cons_self, hfirst⟩
    · obtain ⟨a, ha, hf⟩ := ih hrest hb
      exact ⟨a, List.mem_cons_of_mem first ha, hf⟩

theorem forall₂_of_mapM_ok {ε α β : Type} {f : α → Except ε β} {as : List α} {all : List β}
    (h : as.mapM f = .ok all) : List.Forall₂ (fun a b => f a = .ok b) as all := by
  induction as generalizing all with
  | nil =>
    obtain rfl := Except.ok.inj h
    exact .nil
  | cons a as ih =>
    obtain ⟨b, bs, ha, has, rfl⟩ := mapM_cons_ok.mp h
    exact .cons ha (ih has)

theorem Logged.outcome_bind {ε α β : Type} (x : Logged ε α) (f : α → Logged ε β) :
    (x >>= f).outcome = x.outcome >>= fun a => (f a).outcome := by
  change (Logged.bind x f).outcome = _
  rw [Logged.bind]
  cases x.outcome <;> rfl

/-- A result for which `p` holds, or an error that is `expected`. -/
def Settles {ε α : Type} (expected : ε → Prop) (p : α → Prop) : Except ε α → Prop
  | .ok a => p a
  | .error e => expected e

namespace Settles

variable {ε δ α β : Type} {expected : ε → Prop} {p : α → Prop} {q : β → Prop}

theorem bind {x : Except ε α} {f : α → Except ε β} (hx : Settles expected p x)
    (hf : ∀ a, p a → Settles expected q (f a)) : Settles expected q (x >>= f) := by
  cases x with
  | ok a => exact hf a hx
  | error e => exact hx

theorem mono {x : Except ε α} {r : α → Prop} (hx : Settles expected p x) (h : ∀ a, p a → r a) :
    Settles expected r x := by
  cases x with
  | ok a => exact h a hx
  | error e => exact hx

theorem mapError {other : δ → Prop} {f : ε → δ} {x : Except ε α} (hx : Settles expected p x)
    (hf : ∀ e, expected e → other (f e)) : Settles other p (x.mapError f) := by
  cases x with
  | ok a => exact hx
  | error e => exact hf e hx

end Settles

/-- `x` returns if `c` holds, and ends with an `expected` error if not. -/
structure ReturnsIff {ε α : Type} (c : Prop) (expected : ε → Prop) (x : Except ε α) : Prop where
  returns : c → ∃ a, x = .ok a
  fails : ¬c → ∃ e, x = .error e ∧ expected e

namespace ReturnsIff

variable {ε δ α β : Type} {c d : Prop} {expected : ε → Prop}

theorem of_ok {x : Except ε α} (h : ∃ a, x = .ok a) (hc : c) : ReturnsIff c expected x :=
  ⟨fun _ => h, fun hn => absurd hc hn⟩

theorem of_error {x : Except ε α} (h : ∃ e, x = .error e ∧ expected e) (hc : ¬c) :
    ReturnsIff c expected x :=
  ⟨fun h => absurd h hc, fun _ => h⟩

theorem bind {x : Except ε α} {f : α → Except ε β} (hx : ReturnsIff c expected x)
    (hf : ∀ a, ReturnsIff d expected (f a)) : ReturnsIff (c ∧ d) expected (x >>= f) := by
  constructor
  · intro ⟨hc, hd⟩
    obtain ⟨a, rfl⟩ := hx.returns hc
    exact (hf a).returns hd
  · intro hn
    by_cases hc : c
    · obtain ⟨a, rfl⟩ := hx.returns hc
      exact (hf a).fails fun hd => hn ⟨hc, hd⟩
    · obtain ⟨e, rfl, he⟩ := hx.fails hc
      exact ⟨e, rfl, he⟩

theorem map {x : Except ε α} (hx : ReturnsIff c expected x) (f : α → β) :
    ReturnsIff c expected (x.map f) := by
  constructor
  · intro hc
    obtain ⟨a, rfl⟩ := hx.returns hc
    exact ⟨f a, rfl⟩
  · intro hn
    obtain ⟨e, rfl, he⟩ := hx.fails hn
    exact ⟨e, rfl, he⟩

theorem mapM {q : α → Prop} {f : α → Except ε β} {as : List α}
    (h : ∀ a ∈ as, ReturnsIff (q a) expected (f a)) :
    ReturnsIff (∀ a ∈ as, q a) expected (as.mapM f) := by
  induction as with
  | nil => exact .of_ok ⟨[], rfl⟩ nofun
  | cons a as ih =>
    obtain ⟨ha, has⟩ := List.forall_mem_cons.mp h
    rw [List.mapM_cons, List.forall_mem_cons]
    exact ha.bind fun b => (ih has).map (b :: ·)

theorem mapError {other : δ → Prop} {x : Except ε α} (hx : ReturnsIff c expected x) {f : ε → δ}
    (hf : ∀ e, expected e → other (f e)) : ReturnsIff c other (x.mapError f) := by
  constructor
  · intro hc
    obtain ⟨a, rfl⟩ := hx.returns hc
    exact ⟨a, rfl⟩
  · intro hn
    obtain ⟨e, rfl, he⟩ := hx.fails hn
    exact ⟨f e, rfl, hf e he⟩

theorem congr {x : Except ε α} (hx : ReturnsIff c expected x) (h : c ↔ d) :
    ReturnsIff d expected x :=
  ⟨fun hd => hx.returns (h.mpr hd), fun hn => hx.fails fun hc => hn (h.mp hc)⟩

theorem mono {other : ε → Prop} {x : Except ε α} (hx : ReturnsIff c expected x)
    (h : ¬c → ∀ e, expected e → other e) : ReturnsIff c other x := by
  refine ⟨hx.returns, fun hn => ?_⟩
  obtain ⟨e, rfl, he⟩ := hx.fails hn
  exact ⟨e, rfl, h hn e he⟩

end ReturnsIff

/-! ### Sorting by a number -/

theorem mergeSort_eq_of_perm {α : Type} {key : α → Nat} {mixed sorted : List α}
    (hperm : mixed.Perm sorted) (hsorted : sorted.Pairwise fun a b => key a < key b) :
    mixed.mergeSort (fun a b => key a ≤ key b) = sorted := by
  have hascending : (mixed.mergeSort fun a b => key a ≤ key b).Pairwise
      fun a b => decide (key a ≤ key b) = true :=
    List.pairwise_mergeSort (by simp only [decide_eq_true_eq]; omega)
      (by simp only [Bool.or_eq_true, decide_eq_true_eq]; omega) mixed
  have hsame : (mixed.mergeSort fun a b => key a ≤ key b).Perm sorted :=
    (List.mergeSort_perm mixed _).trans hperm
  have hnodup : (sorted.map key).Nodup := List.pairwise_map.mpr (hsorted.imp Nat.ne_of_lt)
  apply List.Perm.eq_of_pairwise _ hascending _ hsame
  · intro a b ha hb hab hba
    have hkey : key a = key b := Nat.le_antisymm (of_decide_eq_true hab) (of_decide_eq_true hba)
    exact List.inj_on_of_nodup_map hnodup (hsame.mem_iff.mp ha) hb hkey
  · exact hsorted.imp fun hlt => decide_eq_true hlt.le

end CommentedCode
