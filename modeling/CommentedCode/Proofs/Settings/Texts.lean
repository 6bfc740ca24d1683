import CommentedCode.Proofs.Settings.RoundTrip
import CommentedCode.Proofs.Value.Texts
/-!
# Settings that are texts

What a mapping gives for a property that is a text or a list of texts is made a text, null, bytes,
lists and mappings included; only booleans and what holds an integer that is too long are refused,
under the field of the property.
-/
namespace CommentedCode

private theorem Value.eq_of_display_eq_nil {v : Value} (h : v.display = []) : v = .text [] := by
  by_cases htext : ∃ cs, v = .text cs
  · obtain ⟨cs, rfl⟩ := htext
    exact congrArg Value.text h
  · obtain ⟨c, rest, hdisplay, -⟩ := Property.isForeign_display (not_exists.mp htext)
    rw [h] at hdisplay
    cases hdisplay

namespace Settings

/-- The values of settings, with another one for one property. -/
def withValue (s : Settings) (p : Property) (v : Value) (q : Property) : Option Value :=
  if q = p then some v else some (s.value q)

private theorem readValue_withValue_self (s : Settings) (p : Property) (v : Value) :
    readValue (s.withValue p v) p = (coerce p.kind [p.field.toList] v).mapError .coercion :=
  readValue_of_given (if_pos rfl)

private theorem readValue_withValue_of_ne (s : Settings) {p q : Property} (h : q ≠ p) (v : Value) :
    readValue (s.withValue p v) q = .ok (s.value q) := by
  rw [← readValue_value s q]
  exact readValue_congr (if_neg h)

section Build

variable {s : Settings} {p : Property} {v : Value}

private theorem build_withValue_of_error {e : Coercion.Failure}
    (h : coerce p.kind [p.field.toList] v = .error e) :
    build (s.withValue p v) = .error (.coercion e) := by
  have hself := readValue_withValue_self s p v
  rw [h, Except.mapError] at hself
  cases hbuild : build (s.withValue p v) with
  | ok t => cases (readValue_of_build hbuild p).symm.trans hself
  | error other =>
    obtain ⟨q, hq⟩ := exists_readValue_error hbuild
    by_cases hqp : q = p
    · rw [hqp, hself] at hq
      exact congrArg Except.error (Except.error.inj hq.symm)
    · cases (s.readValue_withValue_of_ne hqp v).symm.trans hq

private theorem build_withValue_of_ok {w : Value} (h : coerce p.kind [p.field.toList] v = .ok w) :
    ∃ t, build (s.withValue p v) = .ok t ∧ ∀ q, t.value q = if q = p then w else s.value q := by
  have hself := readValue_withValue_self s p v
  rw [h, Except.mapError] at hself
  have hread (q : Property) :
      readValue (s.withValue p v) q = .ok (if q = p then w else s.value q) := by
    split
    · rename_i hqp
      rw [hqp, hself]
    · rename_i hqp
      exact s.readValue_withValue_of_ne hqp v
  cases hbuild : build (s.withValue p v) with
  | ok t =>
    refine ⟨t, rfl, fun q => ?_⟩
    exact Except.ok.inj ((readValue_of_build hbuild q).symm.trans (hread q))
  | error e =>
    obtain ⟨q, hq⟩ := exists_readValue_error hbuild
    cases (hread q).symm.trans hq

end Build

/-- A value that is set in a mapping stands beside the values that were read from it. -/
theorem ofMapping_setEntry {entries : List (Value × Value)} {s : Settings}
    (h : ofMapping entries = .ok s) (p : Property) (v : Value) :
    ofMapping (setEntry p.name.toList v entries) = build (s.withValue p v) >>= check := by
  obtain ⟨-, given, rfl, hbuilt⟩ := ofMapping_eq_ok h
  obtain ⟨later, hlater, hassigned⟩ := exists_setEntry p v given
  have hor (base : Property → Option Value) :
      (fun q => if q = p then some v else base q) =
        fun q => (if q = p then some v else none).or (base q) := by
    funext q
    split <;> rfl
  have hwith : s.withValue p v = fun q => if q = p then some v else some (s.value q) := rfl
  rw [hlater, ofMapping_byName, funext hassigned, hwith, hor, build_or hbuilt, ← hor]

private theorem coerce_of_mem {entries : List (Value × Value)} {s : Settings}
    (h : ofMapping entries = .ok s) (honce : NamesOnce entries) {p : Property} {v : Value}
    (hmem : (.text p.name.toList, v) ∈ entries) :
    coerce p.kind [p.field.toList] v = .ok (s.value p) := by
  obtain ⟨-, given, rfl, hbuilt⟩ := ofMapping_eq_ok h
  obtain ⟨⟨q, w⟩, hgiven, heq⟩ := List.mem_map.mp hmem
  obtain ⟨hname, rfl⟩ := Prod.mk.inj heq
  obtain rfl := name_injective (Value.text.inj hname)
  have hassigned := (assigned_eq_some_iff (namesOnce_byName_iff.mp honce)).mpr hgiven
  exact mapError_ok.mp ((readValue_of_given hassigned).symm.trans (readValue_of_build hbuilt q))

/-- What a run cannot do without is given something. -/
structure FilledBy (p : Property) (v : Value) : Prop where
  skipSequence : p = .skipSequence → v ≠ .text []
  extensions : p = .extensions → Coercion.items? v ≠ some []

private theorem InOrder.of_value {s t : Settings} (hs : s.InOrder)
    (hthreshold : t.value .threshold = s.value .threshold) (hjobs : t.value .jobs = s.value .jobs)
    (hskip : t.value .skipSequence ≠ .text []) (hextensions : t.value .extensions ≠ texts []) :
    t.InOrder := by
  obtain ⟨hrange, -, hone, -⟩ := (inOrder_iff s).mp hs
  apply (inOrder_iff t).mpr
  refine ⟨?_, ?_, ?_, ?_⟩
  · rw [Value.float.inj hthreshold]
    exact hrange
  · intro hempty
    exact hskip (congrArg Value.text hempty)
  · rw [Value.int.inj hjobs]
    exact hone
  · intro hempty
    exact hextensions (congrArg texts hempty)

open Coercion in
/-- Only the empty text is taken for an empty one, and only no items for no texts. -/
theorem FilledBy.taken_ne {p : Property} {v w : Value} (h : FilledBy p v)
    (htaken : TakenFor p.kind v w) :
    (p = .skipSequence → w ≠ .text []) ∧ (p = .extensions → w ≠ texts []) := by
  constructor
  · rintro rfl hempty
    cases htaken with
    | text _ => exact h.skipSequence rfl (Value.eq_of_display_eq_nil (Value.text.inj hempty))
  · rintro rfl hempty
    cases htaken with
    | @texts _ items hitems _ =>
      rw [List.map_eq_nil_iff.mp (Value.list.inj hempty)] at hitems
      exact h.extensions rfl hitems

open Coercion in
private theorem inOrder_of_taken {s t : Settings} (hs : s.InOrder) {p : Property} {v w : Value}
    (htaken : TakenFor p.kind v w) (hfilled : FilledBy p v)
    (ht : ∀ q, t.value q = if q = p then w else s.value q) : t.InOrder := by
  obtain ⟨-, hskip, -, hextensions⟩ := (inOrder_iff s).mp hs
  obtain ⟨hwskip, hwextensions⟩ := hfilled.taken_ne htaken
  apply hs.of_value
  · rw [ht, if_neg]
    rintro rfl
    cases htaken
  · rw [ht, if_neg]
    rintro rfl
    cases htaken
  · rw [ht]
    split
    · rename_i hp
      exact hwskip hp.symm
    · intro hempty
      exact hskip (Value.text.inj hempty)
  · rw [ht]
    split
    · rename_i hp
      exact hwextensions hp.symm
    · intro hempty
      have hnone : s.extensions.map Value.text = [] := Value.list.inj hempty
      exact hextensions (List.map_eq_nil_iff.mp hnone)

end Settings

open Settings Coercion in
/-- What a mapping that is read gives for a text or a list of texts was taken for one.  A value set
in its place is taken, with all other settings as they were, or refused under its field; only the
sequence that is skipped and the extensions may not be left empty. -/
theorem text_settings {entries : List (Value × Value)} {s : Settings}
    (h : ofMapping entries = .ok s) {p : Property} (hk : p.kind = .text ∨ p.kind = .list .text) :
    (NamesOnce entries → ∀ v, (.text p.name.toList, v) ∈ entries →
      TakenFor p.kind v (s.value p)) ∧
    (∀ v place expected got, RefusedAt p.kind v place expected got →
      ofMapping (setEntry p.name.toList v entries) =
        .error (.coercion (.mistyped (p.field.toList :: place) expected got))) ∧
    (∀ v w, TakenFor p.kind v w → ∃ t : Settings,
      (∀ q, t.value q = if q = p then w else s.value q) ∧
      ofMapping (setEntry p.name.toList v entries) = t.check ∧ (FilledBy p v → t.InOrder)) ∧
    ∀ v, (∃ w, TakenFor p.kind v w) ∨
      ∃ place expected got, RefusedAt p.kind v place expected got := by
  refine ⟨?_, ?_, ?_, taken_or_refused hk⟩
  · intro honce v hmem
    exact takenFor_of_coerce hk (coerce_of_mem h honce hmem)
  · intro v place expected got hrefused
    rw [ofMapping_setEntry h, build_withValue_of_error (hrefused.coerce _)]
    rfl
  · intro v w htaken
    obtain ⟨t, hbuild, ht⟩ := build_withValue_of_ok (htaken.coerce [p.field.toList])
    refine ⟨t, ht, ?_, ?_⟩
    · rw [ofMapping_setEntry h, hbuild]
      rfl
    · intro hfilled
      exact inOrder_of_taken (ofMapping_eq_ok h).1 htaken hfilled ht

open Settings Coercion in
/-- Null and bytes are taken among the patterns and a list as the message; a boolean is refused by
its index. -/
theorem text_settings_exclude :
    let entries : List (Value × Value) := [(.text "exclude".toList, .list [.null, .bytes [97]])]
    let s : Settings := { Settings.default with exclude := ["None".toList, "b'a'".toList] }
    ofMapping entries = .ok s ∧
      TakenFor (.list .text) (.list [.null, .bytes [97]]) (s.value .exclude) ∧
      ofMapping (setEntry "exclude".toList (.list [.null, .bool true]) entries) =
        .error (.coercion (.mistyped ["exclude".toList, ['1']] "str" "bool")) ∧
      ∃ t : Settings, ofMapping (setEntry "message".toList (.list [.null]) entries) = .ok t ∧
        t.value .message = .text "[None]".toList ∧ t.value .exclude = s.value .exclude := by
  intro entries s
  have hread : ofMapping entries = .ok s := rfl
  have honce : NamesOnce entries := List.pairwise_singleton _ _
  obtain ⟨htaken, hrefused, -, -⟩ := text_settings hread (p := .exclude) (.inr rfl)
  obtain ⟨-, -, hset, -⟩ := text_settings hread (p := .message) (.inl rfl)
  have hnull : ∀ u ∈ [Value.null], u.isTextual = true := List.forall_mem_singleton.mpr rfl
  have hbool : RefusedAt (.list .text) (.list [.null, .bool true]) [['1']] "str" "bool" :=
    @RefusedAt.item _ (.bool true) [.null] [] rfl hnull rfl
  obtain ⟨t, ht, hcheck, hinOrder⟩ := hset (.list [.null]) _ (.text rfl)
  refine ⟨hread, htaken honce _ List.mem_cons_self, hrefused _ _ _ _ hbool, t, ?_, ?_, ?_⟩
  · exact hcheck.trans (hinOrder ⟨nofun, nofun⟩)
  · exact ht .message
  · exact ht .exclude

open Settings in
/-- An empty value becomes a sequence that is skipped. -/
theorem text_settings_null :
    ofMapping [(.text "skipCheckSequence".toList, .null)] =
      .ok { Settings.default with skipSequence := "None".toList } := by
  rfl

end CommentedCode
