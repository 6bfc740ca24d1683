import CommentedCode.Proofs.Value.Location
/-!
# Values that become texts

A text is made of every value but booleans and what holds an integer that is too long; so null,
bytes, lists and mappings become the text that is displayed of them.  A list of texts is made of a
text, a list or a tuple.
-/
namespace CommentedCode

/-- Whether a text is made of a value. -/
def Value.isTextual : Value → Bool
  | .bool _ => false
  | v => v.isWritable

namespace Coercion

theorem text_eq (path : Path) (v : Value) :
    text path v =
      if v.isTextual then .ok v.display else .error (.mistyped path "str" v.kindName) := by
  cases v <;> rfl

private theorem coerce_text_of_textual {v : Value} (h : v.isTextual = true) (path : Path) :
    coerce .text path v = .ok (.text v.display) := by
  rw [coerce, text_eq, if_pos h, Except.map]

private theorem coerce_text_of_not_textual {v : Value} (h : v.isTextual = false) (path : Path) :
    coerce .text path v = .error (.mistyped path "str" v.kindName) := by
  rw [coerce, text_eq, h, if_neg Bool.false_ne_true, Except.map]

private theorem each_of_textual {items : List Value} (h : ∀ u ∈ items, u.isTextual = true)
    (path : Path) (i : Nat) :
    each (coerce .text) path i items = .ok (items.map fun u => .text u.display) := by
  induction items generalizing i with
  | nil => rfl
  | cons u items ih =>
    rw [List.forall_mem_cons] at h
    rw [each, coerce_text_of_textual h.1, ih h.2]
    rfl

/-- The text or the list of texts that a value is taken for. -/
inductive TakenFor : Kind → Value → Value → Prop
  | text {v : Value} (h : v.isTextual = true) : TakenFor .text v (.text v.display)
  | texts {v : Value} {items : List Value} (hitems : items? v = some items)
      (h : ∀ u ∈ items, u.isTextual = true) :
      TakenFor (.list .text) v (.list (items.map fun u => .text u.display))

/-- Where in a value, and why, no text or list of texts is made of it. -/
inductive RefusedAt : Kind → Value → Path → String → String → Prop
  | text {v : Value} (h : v.isTextual = false) : RefusedAt .text v [] "str" v.kindName
  | texts {v : Value} (h : items? v = none) : RefusedAt (.list .text) v [] "list" v.kindName
  | item {v u : Value} {before after : List Value} (hitems : items? v = some (before ++ u :: after))
      (hbefore : ∀ w ∈ before, w.isTextual = true) (h : u.isTextual = false) :
      RefusedAt (.list .text) v [decimalDigits before.length] "str" u.kindName

theorem TakenFor.coerce {k : Kind} {v w : Value} (h : TakenFor k v w) (path : Path) :
    coerce k path v = .ok w := by
  cases h with
  | text h => exact coerce_text_of_textual h path
  | texts hitems h =>
    rw [CommentedCode.coerce, list_of_items path hitems, each_of_textual h, Except.map]

theorem RefusedAt.coerce {k : Kind} {v : Value} {place : Path} {expected got : String}
    (h : RefusedAt k v place expected got) (path : Path) :
    coerce k path v = .error (.mistyped (path ++ place) expected got) := by
  cases h with
  | text h => rw [coerce_text_of_not_textual h, List.append_nil]
  | texts h =>
    rw [coerce_list_eq_error_iff, list, h, List.append_nil]
  | @item _ u before after hitems hbefore h =>
    rw [coerce_list_eq_error_iff, list_of_items path hitems,
      (isLocal_coerce .text).each_eq_error_iff]
    refine ⟨before, u, after, rfl, ?_, ?_⟩
    · intro w hw
      exact ⟨_, coerce_text_of_textual (hbefore w hw)⟩
    · rw [Nat.zero_add]
      exact coerce_text_of_not_textual h _

private theorem exists_first_not_textual {items : List Value}
    (h : ¬∀ u ∈ items, u.isTextual = true) :
    ∃ before u after, items = before ++ u :: after ∧ (∀ w ∈ before, w.isTextual = true) ∧
      u.isTextual = false := by
  induction items with
  | nil => exact absurd (List.forall_mem_nil _) h
  | cons first rest ih =>
    cases hfirst : first.isTextual with
    | false => exact ⟨[], first, rest, rfl, List.forall_mem_nil _, hfirst⟩
    | true =>
      obtain ⟨before, u, after, rfl, hbefore, hu⟩ :=
        ih fun hrest => h (List.forall_mem_cons.mpr ⟨hfirst, hrest⟩)
      exact ⟨first :: before, u, after, rfl, List.forall_mem_cons.mpr ⟨hfirst, hbefore⟩, hu⟩

theorem taken_or_refused {k : Kind} (hk : k = .text ∨ k = .list .text) (v : Value) :
    (∃ w, TakenFor k v w) ∨ ∃ place expected got, RefusedAt k v place expected got := by
  rcases hk with rfl | rfl
  · cases h : v.isTextual with
    | true => exact .inl ⟨_, .text h⟩
    | false => exact .inr ⟨_, _, _, .text h⟩
  · cases hitems : items? v with
    | none => exact .inr ⟨_, _, _, .texts hitems⟩
    | some items =>
      by_cases hall : ∀ u ∈ items, u.isTextual = true
      · exact .inl ⟨_, .texts hitems hall⟩
      · obtain ⟨before, u, after, rfl, hbefore, hu⟩ := exists_first_not_textual hall
        exact .inr ⟨_, _, _, .item hitems hbefore hu⟩

theorem takenFor_of_coerce {k : Kind} (hk : k = .text ∨ k = .list .text) {path : Path}
    {v w : Value} (h : coerce k path v = .ok w) : TakenFor k v w := by
  rcases taken_or_refused hk v with ⟨u, hu⟩ | ⟨place, expected, got, hrefused⟩
  · obtain rfl := Except.ok.inj ((hu.coerce path).symm.trans h)
    exact hu
  · cases (hrefused.coerce path).symm.trans h

end Coercion
end CommentedCode
