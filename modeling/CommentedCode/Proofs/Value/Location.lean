import CommentedCode.Proofs.Outcome
import CommentedCode.Value.Coercion
/-!
# Where coercions fail

What a coercion gives does not depend on where the value stands, and its failures say where.  The
value at a reported place fails where it stands alone, and all items before it are accepted.
-/
namespace CommentedCode
namespace Coercion

variable {α β : Type}

/-- The failure of a value that stands at `path`. -/
def Failure.under (path : Path) : Failure → Failure
  | .mistyped place expected got => .mistyped (path ++ place) expected got
  | .overflow => .overflow

private theorem Failure.under_append (path place : Path) (e : Failure) :
    under (path ++ place) e = under path (under place e) := by
  cases e with
  | mistyped inner expected got => rw [under, under, under, List.append_assoc]
  | overflow => rfl

/-- Values are judged alike at all places. -/
def IsLocal (coerced : Path → Value → Except Failure α) : Prop :=
  ∀ path v, coerced path v = (coerced [] v).mapError (Failure.under path)

/-- A refused value is refused as a whole. -/
def IsWhole (coerced : Path → Value → Except Failure α) : Prop :=
  ∀ v, (∃ a, ∀ path, coerced path v = .ok a) ∨ (∀ path, coerced path v = .error .overflow) ∨
    ∃ expected got, ∀ path, coerced path v = .error (.mistyped path expected got)

namespace IsWhole

variable {coerced : Path → Value → Except Failure α}

private theorem isLocal (h : IsWhole coerced) : IsLocal coerced := by
  intro path v
  rcases h v with ⟨a, ha⟩ | hover | ⟨expected, got, hfail⟩
  · rw [ha, ha, Except.mapError]
  · rw [hover, hover, Except.mapError, Failure.under]
  · rw [hfail, hfail, Except.mapError, Failure.under, List.append_nil]

theorem map (h : IsWhole coerced) (f : α → β) :
    IsWhole fun path v => (coerced path v).map f := by
  intro v
  rcases h v with ⟨a, ha⟩ | hover | ⟨expected, got, hfail⟩
  · exact .inl ⟨f a, fun path => congrArg (Except.map f) (ha path)⟩
  · exact .inr (.inl fun path => congrArg (Except.map f) (hover path))
  · exact .inr (.inr ⟨expected, got, fun path => congrArg (Except.map f) (hfail path)⟩)

private theorem of_mistyped (h : IsWhole coerced) {path place : Path} {v : Value}
    {expected got : String} (hfail : coerced path v = .error (.mistyped place expected got)) :
    place = path ∧ ∀ other, coerced other v = .error (.mistyped other expected got) := by
  rcases h v with ⟨a, ha⟩ | hover | ⟨e, g, hwhole⟩
  · cases (ha path).symm.trans hfail
  · cases (hover path).symm.trans hfail
  · cases (hwhole path).symm.trans hfail
    exact ⟨rfl, hwhole⟩

end IsWhole

private theorem isWhole_bool : IsWhole bool := by
  intro v
  cases v with
  | bool b => exact .inl ⟨b, fun _ => rfl⟩
  | _ => exact .inr (.inr ⟨_, _, fun _ => rfl⟩)

private theorem isWhole_text : IsWhole text := by
  intro v
  unfold text
  split
  · exact .inr (.inr ⟨_, _, fun _ => rfl⟩)
  · split
    · exact .inl ⟨_, fun _ => rfl⟩
    · exact .inr (.inr ⟨_, _, fun _ => rfl⟩)

private theorem isWhole_int : IsWhole int := by
  intro v
  unfold int
  split
  · exact .inl ⟨_, fun _ => rfl⟩
  · split
    · exact .inr (.inl fun _ => rfl)
    · split
      · exact .inl ⟨_, fun _ => rfl⟩
      · exact .inr (.inr ⟨_, _, fun _ => rfl⟩)
  · split
    · exact .inl ⟨_, fun _ => rfl⟩
    · exact .inr (.inr ⟨_, _, fun _ => rfl⟩)

private theorem isWhole_float : IsWhole float := by
  intro v
  unfold float
  split
  · exact .inl ⟨_, fun _ => rfl⟩
  · split
    · exact .inl ⟨_, fun _ => rfl⟩
    · exact .inr (.inl fun _ => rfl)
  · split
    · exact .inl ⟨_, fun _ => rfl⟩
    · exact .inr (.inr ⟨_, _, fun _ => rfl⟩)

theorem list_of_items {item : Path → Value → Except Failure α} (path : Path) {v : Value}
    {items : List Value} (h : items? v = some items) :
    list item path v = each item path 0 items := by
  rw [list, h]

theorem coerce_list_eq_error_iff {k : Kind} {path : Path} {v : Value} {e : Failure} :
    coerce (.list k) path v = .error e ↔ list (coerce k) path v = .error e := by
  rw [coerce]
  cases list (coerce k) path v <;> simp only [Except.map, Except.error.injEq, reduceCtorEq]

private theorem each_cons_eq_error_iff {item : Path → Value → Except Failure α} {path : Path}
    {i : Nat} {v : Value} {vs : List Value} {e : Failure} :
    each item path i (v :: vs) = .error e ↔ item (path ++ [decimalDigits i]) v = .error e ∨
      (∃ a, item (path ++ [decimalDigits i]) v = .ok a) ∧ each item path (i + 1) vs = .error e := by
  rw [each, bind_error]
  refine or_congr_right ?_
  constructor
  · intro ⟨a, ha, hrest⟩
    refine ⟨⟨a, ha⟩, (bind_error.mp hrest).resolve_right ?_⟩
    intro ⟨rest, _, hreturn⟩
    cases hreturn
  · intro ⟨⟨a, ha⟩, hrest⟩
    exact ⟨a, ha, bind_error.mpr (.inl hrest)⟩

private theorem forall_mem_of_each {item : Path → Value → Except Failure α} {p : α → Prop}
    (h : ∀ place v a, item place v = .ok a → p a) {path : Path} {i : Nat} {vs : List Value}
    {as : List α} (heach : each item path i vs = .ok as) : ∀ a ∈ as, p a := by
  induction vs generalizing i as with
  | nil =>
    cases heach
    exact List.forall_mem_nil p
  | cons v vs ih =>
    obtain ⟨first, hfirst, hrest⟩ := bind_ok.mp heach
    obtain ⟨rest, hvs, hall⟩ := bind_ok.mp hrest
    cases hall
    exact List.forall_mem_cons.mpr ⟨h _ v first hfirst, ih hvs⟩

private theorem each_eq_self {item : Path → Value → Except Failure Value} {vs : List Value}
    (h : ∀ v ∈ vs, ∀ place, item place v = .ok v) (path : Path) (i : Nat) :
    each item path i vs = .ok vs := by
  induction vs generalizing i with
  | nil => rfl
  | cons v vs ih =>
    rw [List.forall_mem_cons] at h
    rw [each, h.1, ih h.2]
    rfl

namespace IsLocal

variable {item : Path → Value → Except Failure α}

theorem ok (h : IsLocal item) {path : Path} {v : Value} {a : α} (hok : item path v = .ok a)
    (other : Path) : item other v = .ok a := by
  rw [h] at hok ⊢
  cases hitem : item [] v with
  | error e =>
    rw [hitem] at hok
    cases hok
  | ok b =>
    rw [hitem] at hok
    exact hok

theorem map (h : IsLocal item) (f : α → β) : IsLocal fun path v => (item path v).map f := by
  intro path v
  simp only [h path v]
  cases item [] v <;> rfl

theorem each_eq_error_iff (h : IsLocal item) {path : Path} {i : Nat} {vs : List Value}
    {e : Failure} :
    each item path i vs = .error e ↔ ∃ before next after, vs = before ++ next :: after ∧
      (∀ v ∈ before, ∃ a, ∀ other, item other v = .ok a) ∧
      item (path ++ [decimalDigits (i + before.length)]) next = .error e := by
  induction vs generalizing i with
  | nil =>
    constructor
    · nofun
    · intro ⟨before, next, after, hnil, _⟩
      cases before <;> cases hnil
  | cons v vs ih =>
    rw [each_cons_eq_error_iff]
    constructor
    · intro hfail
      rcases hfail with hv | ⟨⟨a, hv⟩, hrest⟩
      · exact ⟨[], v, vs, rfl, nofun, hv⟩
      · obtain ⟨before, next, after, rfl, hbefore, hnext⟩ := ih.mp hrest
        refine ⟨v :: before, next, after, rfl, ?_, ?_⟩
        · exact List.forall_mem_cons.mpr ⟨⟨a, h.ok hv⟩, hbefore⟩
        · rw [List.length_cons, ← Nat.succ_add_eq_add_succ]
          exact hnext
    · intro ⟨before, next, after, hvs, hbefore, hnext⟩
      cases before with
      | nil =>
        cases hvs
        exact .inl hnext
      | cons first before =>
        cases hvs
        rw [List.length_cons, ← Nat.succ_add_eq_add_succ] at hnext
        obtain ⟨⟨a, ha⟩, hbefore⟩ := List.forall_mem_cons.mp hbefore
        exact .inr ⟨⟨a, ha _⟩, ih.mpr ⟨before, next, after, rfl, hbefore, hnext⟩⟩

theorem each (h : IsLocal item) (path : Path) (i : Nat) (vs : List Value) :
    each item path i vs = (each item [] i vs).mapError (Failure.under path) := by
  induction vs generalizing i with
  | nil => rfl
  | cons v vs ih =>
    rw [Coercion.each, Coercion.each, ih, h (path ++ _), h ([] ++ _)]
    cases item [] v with
    | error e => exact congrArg Except.error (Failure.under_append path _ e)
    | ok a => cases Coercion.each item [] (i + 1) vs <;> rfl

theorem list (h : IsLocal item) : IsLocal (list item) := by
  intro path v
  rw [Coercion.list, Coercion.list]
  split
  · exact h.each path 0 _
  · rw [Except.mapError, Failure.under, List.append_nil]

end IsLocal

theorem isLocal_coerce (k : Kind) : IsLocal (coerce k) := by
  induction k with
  | any => exact fun _ _ => rfl
  | bool => exact (isWhole_bool.map Value.bool).isLocal
  | text => exact (isWhole_text.map Value.text).isLocal
  | int => exact (isWhole_int.map Value.int).isLocal
  | float => exact (isWhole_float.map Value.float).isLocal
  | list item ih => exact ih.list.map Value.list

/-- The coercion of `v` for the kind `k` gets to the item `culprit` behind `indexes`, which is asked
to be of the kind `inner`.  At every level all items before it are accepted. -/
inductive Reaches : Kind → Value → List Nat → Kind → Value → Prop
  | here (k : Kind) (v : Value) : Reaches k v [] k v
  | item {k inner : Kind} {v next culprit : Value} {before after : List Value}
      {indexes : List Nat} (hitems : items? v = some (before ++ next :: after))
      (hbefore : ∀ u ∈ before, ∃ w, ∀ path, coerce k path u = .ok w)
      (h : Reaches k next indexes inner culprit) :
      Reaches (.list k) v (before.length :: indexes) inner culprit

namespace Reaches

/-- A reached value that is refused as a whole is the one that a failure is about. -/
theorem coerce_eq_error {k inner : Kind} {v culprit : Value} {indexes : List Nat}
    (h : Reaches k v indexes inner culprit) {path : Path} {e : Failure}
    (he : coerce inner (path ++ indexes.map decimalDigits) culprit = .error e) :
    coerce k path v = .error e := by
  induction h generalizing path with
  | here k v =>
    rw [List.map_nil, List.append_nil] at he
    exact he
  | @item k inner v next culprit before after indexes hitems hbefore h ih =>
    have hnext : coerce k (path ++ [decimalDigits (0 + before.length)]) next = .error e := by
      apply ih
      rw [Nat.zero_add, List.append_assoc]
      exact he
    rw [coerce_list_eq_error_iff, list_of_items path hitems]
    exact (isLocal_coerce k).each_eq_error_iff.mpr ⟨before, next, after, rfl, hbefore, hnext⟩

private theorem of_mistyped {k : Kind} {path place : Path} {v : Value} {expected got : String}
    (hfail : coerce k path v = .error (.mistyped place expected got)) :
    ∃ indexes inner culprit, place = path ++ indexes.map decimalDigits ∧
      Reaches k v indexes inner culprit ∧
      ∀ other, coerce inner other culprit = .error (.mistyped other expected got) := by
  have hhere {k : Kind} {path : Path} {v : Value} (hplace : place = path ∧
      ∀ other, coerce k other v = .error (.mistyped other expected got)) :
      ∃ indexes inner culprit, place = path ++ indexes.map decimalDigits ∧
        Reaches k v indexes inner culprit ∧
        ∀ other, coerce inner other culprit = .error (.mistyped other expected got) :=
    ⟨[], k, v, by rw [hplace.1, List.map_nil, List.append_nil], .here k v, hplace.2⟩
  -- Along the kind: what fails below a list fails for the kind of its items.
  induction k generalizing path v with
  | any => cases hfail
  | bool => exact hhere ((isWhole_bool.map Value.bool).of_mistyped hfail)
  | text => exact hhere ((isWhole_text.map Value.text).of_mistyped hfail)
  | int => exact hhere ((isWhole_int.map Value.int).of_mistyped hfail)
  | float => exact hhere ((isWhole_float.map Value.float).of_mistyped hfail)
  | list item ih =>
    cases hitems : items? v with
    | none =>
      have hlist (other : Path) : list (coerce item) other v =
          .error (.mistyped other "list" v.kindName) := by
        rw [list, hitems]
      rw [coerce_list_eq_error_iff, hlist] at hfail
      cases hfail
      exact hhere ⟨rfl, fun other => coerce_list_eq_error_iff.mpr (hlist other)⟩
    | some items =>
      rw [coerce_list_eq_error_iff, list_of_items path hitems] at hfail
      obtain ⟨before, next, after, rfl, hbefore, hnext⟩ :=
        (isLocal_coerce item).each_eq_error_iff.mp hfail
      obtain ⟨indexes, inner, culprit, hplace, hreach, hculprit⟩ := ih hnext
      refine ⟨before.length :: indexes, inner, culprit, ?_, .item hitems hbefore hreach, hculprit⟩
      rw [hplace, Nat.zero_add, List.map_cons, List.append_assoc, List.singleton_append]

private theorem hasKind {k inner : Kind} {v u : Value} {indexes : List Nat}
    (h : Reaches k v indexes inner u) (hv : v.HasKind k) : u.HasKind inner := by
  induction h with
  | here k v => exact hv
  | item hitems _ _ ih =>
    cases hv with
    | list hall =>
      cases hitems
      exact ih (hall _ (List.mem_append_right _ List.mem_cons_self))

end Reaches

private theorem hasKind_of_coerce {k : Kind} {path : Path} {v w : Value}
    (h : coerce k path v = .ok w) : w.HasKind k := by
  induction k generalizing path v w with
  | any => exact .any w
  | bool =>
    obtain ⟨b, -, rfl⟩ := map_ok h
    exact .bool b
  | text =>
    obtain ⟨cs, -, rfl⟩ := map_ok h
    exact .text cs
  | int =>
    obtain ⟨n, -, rfl⟩ := map_ok h
    exact .int n
  | float =>
    obtain ⟨x, -, rfl⟩ := map_ok h
    exact .float x
  | list item ih =>
    obtain ⟨ws, hlist, rfl⟩ := map_ok h
    rw [list] at hlist
    split at hlist
    · exact .list (forall_mem_of_each (fun _ _ _ hitem => ih hitem) hlist)
    · cases hlist

private theorem coerce_of_hasKind {k : Kind} {w : Value} (h : w.HasKind k) (path : Path) :
    coerce k path w = .ok w := by
  induction h generalizing path with
  | any | bool | text | int | float => rfl
  | @list items k _ ih =>
    rw [coerce, list_of_items path rfl, each_eq_self ih, Except.map]

/-- A coerced value is of the kind that was asked for and is left as it is wherever it stands.  A
failure tells the place of the first value that is refused: that value fails by itself. -/
theorem coerce_typed_or_located (k : Kind) (path : Path) (v : Value) :
    (∀ w, coerce k path v = .ok w → w.HasKind k ∧
      (∀ indexes inner b, Reaches k w indexes inner (.bool b) → inner = .any ∨ inner = .bool) ∧
      ∀ other, coerce k other w = .ok w) ∧
    ∀ place expected got, coerce k path v = .error (.mistyped place expected got) ↔
      ∃ indexes inner culprit, place = path ++ indexes.map decimalDigits ∧
        Reaches k v indexes inner culprit ∧
        ∀ other, coerce inner other culprit = .error (.mistyped other expected got) := by
  constructor
  · intro w hw
    have hkind : w.HasKind k := hasKind_of_coerce hw
    refine ⟨hkind, ?_, coerce_of_hasKind hkind⟩
    intro indexes inner b hreach
    cases hreach.hasKind hkind with
    | any => exact .inl rfl
    | bool => exact .inr rfl
  · intro place expected got
    constructor
    · exact Reaches.of_mistyped
    · intro ⟨indexes, inner, culprit, hplace, hreach, hculprit⟩
      rw [hplace]
      exact hreach.coerce_eq_error (hculprit _)

theorem coerce_located_nested :
    let v : Value := .list [.text ['a'], .tuple [.null, .bool true]]
    coerce (.list (.list .text)) [['x']] v =
        .error (.mistyped [['x'], ['1'], ['1']] "str" "bool") ∧
      ∃ indexes inner culprit, [['x'], ['1'], ['1']] = [['x']] ++ indexes.map decimalDigits ∧
        Reaches (.list (.list .text)) v indexes inner culprit ∧
        ∀ other, coerce inner other culprit = .error (.mistyped other "str" "bool") := by
  intro v
  have hfail : coerce (.list (.list .text)) [['x']] v =
      .error (.mistyped [['x'], ['1'], ['1']] "str" "bool") := by rfl
  exact ⟨hfail, ((coerce_typed_or_located _ _ v).2 _ _ _).mp hfail⟩

end Coercion
end CommentedCode
