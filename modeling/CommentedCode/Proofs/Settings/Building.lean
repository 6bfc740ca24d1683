import CommentedCode.Proofs.Settings.Reading
/-!
# Settings that are built

Settings are built property by property: each field holds the value that is read for its property.
Where settings were built, their own values may stand in for what they were built from.
-/
namespace CommentedCode.Settings

/-- The value that is read for a property. -/
def readValue (given : Property → Option Value) (p : Property) : Except SettingsError Value :=
  readProperty (coerce p.kind) given p (default.value p)

theorem readValue_congr {given other : Property → Option Value} {p : Property}
    (h : given p = other p) : readValue given p = readValue other p := by
  rw [readValue, readProperty, h]
  rfl

theorem readValue_of_given {given : Property → Option Value} {p : Property} {v : Value}
    (h : given p = some v) :
    readValue given p = (coerce p.kind [p.field.toList] v).mapError .coercion := by
  rw [readValue, readProperty, h]

section Field

variable {α : Type} {k : Kind} {coerced : Coercion.Path → Value → Except Coercion.Failure α}
  {wrap : α → Value} (hwraps : Coercion.Wraps k coerced wrap) {p : Property} (hk : p.kind = k)
  {byDefault : α} (hd : default.value p = wrap byDefault) {given other : Property → Option Value}
include hwraps hk hd

private theorem readValue_eq_map :
    readValue given p = (readProperty coerced given p byDefault).map wrap := by
  rw [readValue, readProperty, readProperty]
  split
  · rename_i v _
    rw [hk, hwraps.coerce_eq]
    cases coerced [p.field.toList] v <;> rfl
  · rw [hd]
    rfl

private theorem field_congr (h : readValue given p = readValue other p) :
    readProperty coerced given p byDefault = readProperty coerced other p byDefault := by
  rw [readValue_eq_map hwraps hk hd, readValue_eq_map hwraps hk hd] at h
  exact map_injective hwraps.injective h

private theorem readValue_of_field {a : α} (h : readProperty coerced given p byDefault = .ok a) :
    readValue given p = .ok (wrap a) := by
  rw [readValue_eq_map hwraps hk hd, h]
  rfl

private theorem readValue_of_field_error {e : SettingsError}
    (h : readProperty coerced given p byDefault = .error e) : readValue given p = .error e := by
  rw [readValue_eq_map hwraps hk hd, h]
  rfl

end Field

open Coercion in
/-- What is built depends on the values that are read for the single properties. -/
theorem build_congr {given other : Property → Option Value}
    (h : ∀ p, readValue given p = readValue other p) : build given = build other := by
  rw [build, build, field_congr wraps_float rfl rfl (h .threshold),
    field_congr wraps_text rfl rfl (h .skipSequence),
    field_congr wraps_bool rfl rfl (h .skipJavadocs),
    field_congr wraps_text rfl rfl (h .message),
    field_congr wraps_text.list rfl rfl (h .extensions),
    field_congr wraps_text.list rfl rfl (h .exclude),
    field_congr wraps_bool rfl rfl (h .respectGitignore),
    field_congr wraps_int rfl rfl (h .jobs)]

open Coercion in
theorem readValue_of_build {given : Property → Option Value} {s : Settings}
    (h : build given = .ok s) (p : Property) : readValue given p = .ok (s.value p) := by
  simp only [build, bind_ok] at h
  obtain ⟨_, hthreshold, _, hskip, _, hjavadocs, _, hmessage, _, hextensions, _, hexclude, _,
    hgitignore, _, hjobs, heq⟩ := h
  obtain rfl := Except.ok.inj heq
  cases p with
  | threshold => exact readValue_of_field wraps_float rfl rfl hthreshold
  | skipSequence => exact readValue_of_field wraps_text rfl rfl hskip
  | skipJavadocs => exact readValue_of_field wraps_bool rfl rfl hjavadocs
  | message => exact readValue_of_field wraps_text rfl rfl hmessage
  | extensions => exact readValue_of_field wraps_text.list rfl rfl hextensions
  | exclude => exact readValue_of_field wraps_text.list rfl rfl hexclude
  | respectGitignore => exact readValue_of_field wraps_bool rfl rfl hgitignore
  | jobs => exact readValue_of_field wraps_int rfl rfl hjobs

open Coercion in
/-- Where no settings are built, the value for some property is refused. -/
theorem exists_readValue_error {given : Property → Option Value} {e : SettingsError}
    (h : build given = .error e) : ∃ p, readValue given p = .error e := by
  simp only [build, bind_error] at h
  rcases h with h | ⟨_, -, h | ⟨_, -, h | ⟨_, -, h | ⟨_, -, h | ⟨_, -, h | ⟨_, -, h | ⟨_, -, h |
    ⟨_, -, h⟩⟩⟩⟩⟩⟩⟩⟩
  · exact ⟨.threshold, readValue_of_field_error wraps_float rfl rfl h⟩
  · exact ⟨.skipSequence, readValue_of_field_error wraps_text rfl rfl h⟩
  · exact ⟨.skipJavadocs, readValue_of_field_error wraps_bool rfl rfl h⟩
  · exact ⟨.message, readValue_of_field_error wraps_text rfl rfl h⟩
  · exact ⟨.extensions, readValue_of_field_error wraps_text.list rfl rfl h⟩
  · exact ⟨.exclude, readValue_of_field_error wraps_text.list rfl rfl h⟩
  · exact ⟨.respectGitignore, readValue_of_field_error wraps_bool rfl rfl h⟩
  · exact ⟨.jobs, readValue_of_field_error wraps_int rfl rfl h⟩
  · cases h

theorem build_value (s : Settings) : build (fun p => some (s.value p)) = .ok s := by
  have hlist (p : Property) {items : List Text} (hp : s.value p = texts items) (d : List Text) :
      readProperty (Coercion.list Coercion.text) (fun p => some (s.value p)) p d = .ok items := by
    rw [readProperty, hp]
    dsimp only
    rw [list_texts]
    rfl
  rw [build, hlist .extensions rfl, hlist .exclude rfl]
  rfl

theorem readValue_value (s : Settings) (p : Property) :
    readValue (fun p => some (s.value p)) p = .ok (s.value p) :=
  readValue_of_build (build_value s) p

/-- Where settings were built, their values may stand in for what they were built from. -/
theorem build_or {base : Property → Option Value} {s : Settings} (h : build base = .ok s)
    (first : Property → Option Value) :
    build (fun p => (first p).or (base p)) = build (fun p => (first p).or (some (s.value p))) := by
  refine build_congr fun p => ?_
  cases hp : first p with
  | some v => exact readValue_congr (by rw [hp]; rfl)
  | none =>
    calc readValue (fun p => (first p).or (base p)) p
      _ = readValue base p := readValue_congr (by rw [hp]; rfl)
      _ = .ok (s.value p) := readValue_of_build h p
      _ = readValue (fun p => some (s.value p)) p := (readValue_value s p).symm
      _ = readValue (fun p => (first p).or (some (s.value p))) p :=
        readValue_congr (by rw [hp]; rfl)

end CommentedCode.Settings
