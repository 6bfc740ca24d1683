import CommentedCode.Proofs.Value.Coercion
import CommentedCode.Settings.Reading
/-!
# Settings that are read

Reading settings gives settings that pass their check, or an error that is worded for the user.
Four kinds of values are the exception, all of them numbers: a key that holds an integer too long
to be written, a threshold too large for a floating-point number, an infinite number of jobs, and
a negative number of jobs too long to be written.
-/
namespace CommentedCode

/-- An error that the user can mend. -/
def SettingsError.IsWorded (e : SettingsError) : Prop :=
  e.message?.isSome = true

/-- Whether an integer may stand for jobs, or is short enough for the message about them. -/
def Value.isTellable : Value → Bool
  | .int n => 0 < n || (Value.int n).isWritable
  | _ => true

/-- Whether a value for a property is read, or refused in words. -/
def Property.admits : Property → Value → Bool
  | .threshold, v => Coercion.fitsFloat v
  | .jobs, v => Coercion.fitsInt v && v.isTellable
  | _, _ => true

namespace Settings

/-- Settings that pass their check. -/
def InOrder (s : Settings) : Prop :=
  s.check = .ok s

theorem eq_of_check {s t : Settings} (h : s.check = .ok t) : t = s := by
  unfold check at h
  split_ifs at h
  exact (Except.ok.inj h).symm

theorem inOrder_iff (s : Settings) : s.InOrder ↔ Options.inRange s.threshold = true ∧
    s.skipSequence ≠ [] ∧ 1 ≤ s.jobs ∧ s.extensions ≠ [] := by
  unfold InOrder check
  split_ifs <;> simp_all

private theorem settles_check {s : Settings}
    (h : 0 < s.jobs ∨ (Value.int s.jobs).isWritable = true) :
    Settles SettingsError.IsWorded InOrder s.check := by
  cases hc : s.check with
  | ok t =>
    obtain rfl := eq_of_check hc
    exact hc
  | error e =>
    unfold check at hc
    split_ifs at hc with _ _ hjobs
    case pos => exact Except.error.inj hc ▸ rfl
    case pos => exact Except.error.inj hc ▸ rfl
    case pos =>
      obtain rfl := Except.error.inj hc
      rw [jobsError, if_pos (h.resolve_left (by omega))]
      rfl
    case pos => exact Except.error.inj hc ▸ rfl

section Build

variable {given : Property → Option Value}

private theorem isWorded_of_isNamed (f : Coercion.Failure) (h : f.IsNamed) :
    (SettingsError.coercion f).IsWorded := by
  cases f with
  | mistyped path expected got => rfl
  | overflow => exact h.elim

private theorem settles_readProperty {α : Type} {q : α → Prop}
    {coerced : Coercion.Path → Value → Except Coercion.Failure α} {p : Property} {byDefault : α}
    (h : ∀ v, given p = some v →
      Settles Coercion.Failure.IsNamed q (coerced [p.field.toList] v)) (hd : q byDefault) :
    Settles SettingsError.IsWorded q (readProperty coerced given p byDefault) := by
  rw [readProperty]
  split
  · rename_i v hv
    exact (h v hv).mapError isWorded_of_isNamed
  · exact hd

private theorem settles_jobs {v : Value} (h : Property.jobs.admits v = true)
    (path : Coercion.Path) : Settles Coercion.Failure.IsNamed
      (fun n => 0 < n ∨ (Value.int n).isWritable = true) (Coercion.int path v) := by
  rw [Property.admits, Bool.and_eq_true] at h
  refine (Coercion.settles_int h.1 path).mono fun n hn => ?_
  rcases hn with rfl | hn
  · simpa [Value.isTellable] using h.2
  · exact .inr hn

private theorem settles_build (h : ∀ p v, given p = some v → p.admits v = true) :
    Settles SettingsError.IsWorded
      (fun s => 0 < s.jobs ∨ (Value.int s.jobs).isWritable = true) (build given) := by
  have htext (p : Property) (d : Text) : Settles SettingsError.IsWorded (fun _ => True)
      (readProperty Coercion.text given p d) :=
    settles_readProperty (fun v _ => Coercion.settles_text _ v) trivial
  have hbool (p : Property) (d : Bool) : Settles SettingsError.IsWorded (fun _ => True)
      (readProperty Coercion.bool given p d) :=
    settles_readProperty (fun v _ => Coercion.settles_bool _ v) trivial
  have hlist (p : Property) (d : List Text) : Settles SettingsError.IsWorded (fun _ => True)
      (readProperty (Coercion.list Coercion.text) given p d) :=
    settles_readProperty (fun v _ => Coercion.settles_list Coercion.settles_text _ v) trivial
  have hthreshold : Settles SettingsError.IsWorded (fun _ => True)
      (readProperty Coercion.float given .threshold default.threshold) :=
    settles_readProperty (fun v hv => Coercion.settles_float (h _ v hv) _) trivial
  have hjobs : Settles SettingsError.IsWorded
      (fun n => 0 < n ∨ (Value.int n).isWritable = true)
      (readProperty Coercion.int given .jobs default.jobs) :=
    settles_readProperty (fun v hv => settles_jobs (h _ v hv) _) (.inl (by decide))
  exact hthreshold.bind fun _ _ => (htext _ _).bind fun _ _ => (hbool _ _).bind fun _ _ =>
    (htext _ _).bind fun _ _ => (hlist _ _).bind fun _ _ => (hlist _ _).bind fun _ _ =>
    (hbool _ _).bind fun _ _ => hjobs.bind fun _ hn => hn

end Build

theorem mem_of_assigned {given : List (Property × Value)} {p : Property} {v : Value}
    (h : assigned given p = some v) : (p, v) ∈ given := by
  obtain ⟨⟨q, w⟩, hfind, rfl⟩ := Option.map_eq_some_iff.mp h
  have hq : q = p := by simpa using List.find?_some hfind
  subst hq
  exact List.mem_reverse.mp (List.mem_of_find?_eq_some hfind)

/-- Whether an entry of a configuration file is read, or refused in words. -/
def admitsEntry (key v : Value) : Bool :=
  key.isWritable && (Property.ofName? key.display).all (·.admits v)

private theorem settles_recognise {key v : Value} (h : admitsEntry key v = true) :
    Settles SettingsError.IsWorded (fun p => p.admits v = true) (recognise key) := by
  rw [admitsEntry, Bool.and_eq_true] at h
  rw [recognise, if_pos h.1]
  split
  · rfl
  · rename_i p hp
    have hadmits : p.admits v = true := by simpa [hp] using h.2
    exact hadmits

private theorem settles_assignments {entries : List (Value × Value)}
    (h : ∀ key v, (key, v) ∈ entries → admitsEntry key v = true) :
    Settles SettingsError.IsWorded (fun given => ∀ p v, (p, v) ∈ given → p.admits v = true)
      (assignments entries) := by
  induction entries with
  | nil => exact nofun
  | cons entry entries ih =>
    obtain ⟨key, value⟩ := entry
    have hrest := ih fun k v hk => h k v (List.mem_cons_of_mem _ hk)
    refine (settles_recognise (h key value List.mem_cons_self)).bind fun p hp =>
      hrest.bind fun given hgiven => ?_
    intro q v hq
    rcases List.mem_cons.mp hq with heq | hq
    · obtain ⟨rfl, rfl⟩ := Prod.mk.inj heq
      exact hp
    · exact hgiven q v hq

private theorem settles_ofMapping {entries : List (Value × Value)}
    (h : ∀ key v, (key, v) ∈ entries → admitsEntry key v = true) :
    Settles SettingsError.IsWorded InOrder (ofMapping entries) :=
  (settles_assignments h).bind fun _ hgiven =>
    (settles_build fun p v hv => hgiven p v (mem_of_assigned hv)).bind fun _ hs => settles_check hs

/-- Whether an override is read, or refused in words. -/
def admitsOverride (key : Text) (v : Value) : Bool :=
  (Property.ofField? key).all (·.admits v)

private theorem InOrder.admits {s : Settings} (h : s.InOrder) (p : Property) :
    p.admits (s.value p) = true := by
  cases p with
  | jobs =>
    have hjobs : 0 < s.jobs := ((inOrder_iff s).mp h).2.2.1
    simp [Property.admits, value, Coercion.fitsInt, Value.isTellable, hjobs]
  | _ => rfl

private theorem settles_override {s : Settings} (hs : s.InOrder) {overrides : List (Text × Value)}
    (h : ∀ key v, (key, v) ∈ overrides → admitsOverride key v = true) :
    Settles SettingsError.IsWorded InOrder (s.override overrides) := by
  rw [override]
  dsimp only
  split
  · exact hs
  · split
    · rfl
    · refine (settles_build fun p v hv => ?_).bind fun _ hb => settles_check hb
      rcases Option.or_eq_some_iff.mp hv with hgiven | ⟨-, hvalue⟩
      · obtain ⟨⟨key, w⟩, hmem, hkey⟩ := List.mem_filterMap.mp (mem_of_assigned hgiven)
        obtain ⟨q, hq, heq⟩ := Option.map_eq_some_iff.mp hkey
        obtain ⟨rfl, rfl⟩ := Prod.mk.inj heq
        have hadmits := h key w (List.mem_filter.mp hmem).1
        simpa [admitsOverride, hq] using hadmits
      · obtain rfl := Option.some.inj hvalue
        exact hs.admits p

section Refused

/-- An error of conversion, which no user error covers. -/
def Escapes (r : Except SettingsError Settings) : Prop :=
  ∃ e, r = .error e ∧ ¬e.IsWorded

/-- Values that are those of settings, or absent where these are the defaults. -/
private def Agrees (given : Property → Option Value) (s : Settings) (p : Property) : Prop :=
  given p = some (s.value p) ∨ given p = none ∧ s = default

private theorem readProperty_of_agrees {α : Type} {given : Property → Option Value} {s : Settings}
    {p : Property} {f : Coercion.Path → Value → Except Coercion.Failure α} {byDefault a : α}
    (h : Agrees given s p) (hv : ∀ path, f path (s.value p) = .ok a)
    (hd : s = default → byDefault = a) : readProperty f given p byDefault = .ok a := by
  rw [readProperty]
  rcases h with h | ⟨h, hs⟩
  · rw [h]
    dsimp only
    rw [hv]
    rfl
  · rw [h, hd hs]

theorem list_texts (path : Coercion.Path) (items : List Text) :
    Coercion.list Coercion.text path (texts items) = .ok items := by
  have heach (i : Nat) : Coercion.each Coercion.text path i (items.map .text) = .ok items := by
    induction items generalizing i with
    | nil => rfl
    | cons cs items ih =>
      rw [List.map_cons, Coercion.each, ih (i + 1)]
      rfl
  exact heach 0

/-- Where all other properties are those of `s`, the number of jobs decides what is built. -/
private theorem build_of_agrees {given : Property → Option Value} {s : Settings}
    (h : ∀ p ≠ .jobs, Agrees given s p) : build given =
      (readProperty Coercion.int given .jobs default.jobs).map fun n => { s with jobs := n } := by
  have hthreshold := readProperty_of_agrees (f := Coercion.float) (h .threshold nofun)
    (fun _ => rfl) (fun hs => congrArg Settings.threshold hs.symm)
  have hskip := readProperty_of_agrees (f := Coercion.text) (h .skipSequence nofun)
    (fun _ => rfl) (fun hs => congrArg Settings.skipSequence hs.symm)
  have hjavadocs := readProperty_of_agrees (f := Coercion.bool) (h .skipJavadocs nofun)
    (fun _ => rfl) (fun hs => congrArg Settings.skipJavadocs hs.symm)
  have hmessage := readProperty_of_agrees (f := Coercion.text) (h .message nofun)
    (fun _ => rfl) (fun hs => congrArg Settings.message hs.symm)
  have hextensions := readProperty_of_agrees (h .extensions nofun)
    (fun path => list_texts path s.extensions) (fun hs => congrArg Settings.extensions hs.symm)
  have hexclude := readProperty_of_agrees (h .exclude nofun)
    (fun path => list_texts path s.exclude) (fun hs => congrArg Settings.exclude hs.symm)
  have hgitignore := readProperty_of_agrees (f := Coercion.bool)
    (h .respectGitignore nofun) (fun _ => rfl)
    (fun hs => congrArg Settings.respectGitignore hs.symm)
  rw [build, hthreshold, hskip, hjavadocs, hmessage, hextensions, hexclude, hgitignore]
  cases readProperty Coercion.int given .jobs default.jobs <;> rfl

private theorem escapes_build {given : Property → Option Value} {s : Settings} (hs : s.InOrder)
    {p : Property} {v : Value} (hp : given p = some v) (hv : p.admits v = false)
    (h : ∀ q ≠ p, Agrees given s q) : Escapes (build given >>= check) := by
  cases p with
  | threshold =>
    refine ⟨.coercion .overflow, ?_, Bool.false_ne_true⟩
    rw [build, readProperty, hp]
    dsimp only
    rw [Coercion.float_of_not_fits hv]
    rfl
  | jobs =>
    rw [build_of_agrees h, readProperty, hp]
    dsimp only
    cases hfits : Coercion.fitsInt v with
    | false =>
      rw [Coercion.int_of_not_fits hfits]
      exact ⟨.coercion .overflow, rfl, Bool.false_ne_true⟩
    | true =>
      have htell : v.isTellable = false := by simpa [Property.admits, hfits] using hv
      unfold Value.isTellable at htell
      split at htell
      · rename_i n
        simp only [Bool.or_eq_false_iff, decide_eq_false_iff_not] at htell
        obtain ⟨hrange, hskip, -, -⟩ := (inOrder_iff s).mp hs
        refine ⟨.unwritable Value.tooLong, ?_, Bool.false_ne_true⟩
        change check { s with jobs := n } = _
        simp [check, hrange, hskip, jobsError, htell.2, (by omega : n < 1)]
      · cases htell
  | _ => cases hv

private theorem assigned_single (p q : Property) (v : Value) :
    assigned [(p, v)] q = if p = q then some v else none := by
  by_cases h : p = q <;> simp [assigned, h]

theorem inOrder_default : default.InOrder :=
  (inOrder_iff default).mpr ⟨by decide, by decide, by decide, by decide⟩

private theorem escapes_ofMapping {key v : Value} (h : admitsEntry key v = false) :
    Escapes (ofMapping [(key, v)]) := by
  cases hkey : key.isWritable with
  | false =>
    have hrecognise : recognise key = .error (.unwritable Value.tooLong) := by
      rw [recognise, if_neg (by simp [hkey])]
    refine ⟨.unwritable Value.tooLong, ?_, Bool.false_ne_true⟩
    rw [ofMapping, assignments, hrecognise]
    rfl
  | true =>
    obtain ⟨p, hp, hv⟩ : ∃ p, Property.ofName? key.display = some p ∧ p.admits v = false := by
      cases hp : Property.ofName? key.display with
      | none => simp [admitsEntry, hkey, hp] at h
      | some p => exact ⟨p, rfl, by simpa [admitsEntry, hkey, hp] using h⟩
    have hassignments : assignments [(key, v)] = .ok [(p, v)] := by
      rw [assignments, recognise, if_pos hkey, hp]
      rfl
    rw [ofMapping, hassignments]
    exact escapes_build inOrder_default (by rw [assigned_single, if_pos rfl]) hv fun q hq =>
      .inr ⟨by rw [assigned_single, if_neg (Ne.symm hq)], rfl⟩

private theorem escapes_override {s : Settings} (hs : s.InOrder) {p : Property} {v : Value}
    (h : p.admits v = false) : Escapes (s.override [(p.field.toList, v)]) := by
  have hgivens : changes [(p.field.toList, v)] = [(p.field.toList, v)] := by
    cases v with
    | null => cases p <;> cases h
    | _ => rfl
  have hfield : Property.ofField? p.field.toList = some p := by cases p <;> rfl
  have hoverride : s.override [(p.field.toList, v)] =
      build (fun q => (assigned [(p, v)] q).or (some (s.value q))) >>= check := by
    simp [override, hgivens, hfield]
  rw [hoverride]
  refine escapes_build hs (by rw [assigned_single, if_pos rfl]; rfl) h fun q hq => ?_
  left
  dsimp only
  rw [assigned_single, if_neg (Ne.symm hq)]
  rfl

end Refused

end Settings

/-- Entries and overrides that are admitted give settings in order or an error in words; each one
that is not admitted makes an error of another kind. -/
theorem settings_settle (entries : List (Value × Value)) :
    ((∀ key v, (key, v) ∈ entries → Settings.admitsEntry key v = true) →
      Settles SettingsError.IsWorded Settings.InOrder (Settings.ofMapping entries)) ∧
    (∀ key v, Settings.admitsEntry key v = false →
      Settings.Escapes (Settings.ofMapping [(key, v)])) ∧
    ∀ s : Settings, s.InOrder →
      (∀ overrides, (∀ key v, (key, v) ∈ overrides → Settings.admitsOverride key v = true) →
        Settles SettingsError.IsWorded Settings.InOrder (s.override overrides)) ∧
      ∀ p v, Property.admits p v = false → Settings.Escapes (s.override [(p.field.toList, v)]) :=
  ⟨Settings.settles_ofMapping, fun _ _ => Settings.escapes_ofMapping, fun _ hs =>
    ⟨fun _ => Settings.settles_override hs, fun _ _ => Settings.escapes_override hs⟩⟩

/-- A number of jobs in a mapping and in an override. -/
theorem settings_settle_jobs :
    let entry : Value × Value := (.text "jobs".toList, .int 3)
    let override : Text × Value := ("jobs".toList, .float 2.0)
    (Settings.admitsEntry entry.1 entry.2 = true ∧ Settings.default.InOrder ∧
        Settings.admitsOverride override.1 override.2 = true) ∧
      Settles SettingsError.IsWorded Settings.InOrder (Settings.ofMapping [entry]) ∧
      Settles SettingsError.IsWorded Settings.InOrder (Settings.default.override [override]) := by
  intro entry override
  obtain ⟨hmapping, -, hoverride⟩ := settings_settle [entry]
  have hentry : Settings.admitsEntry entry.1 entry.2 = true := rfl
  have hgiven : Settings.admitsOverride override.1 override.2 = true := rfl
  refine ⟨⟨hentry, Settings.inOrder_default, hgiven⟩, hmapping fun key v h => ?_,
    (hoverride _ Settings.inOrder_default).1 _ fun key v h => ?_⟩
  · obtain ⟨rfl, rfl⟩ := Prod.mk.inj (List.mem_singleton.mp h)
    exact hentry
  · obtain ⟨rfl, rfl⟩ := Prod.mk.inj (List.mem_singleton.mp h)
    exact hgiven

/-- An infinite number of jobs overflows. -/
theorem settings_overflow :
    let infinity : Float := 1.0 / 0.0
    Settings.ofMapping [(.text "jobs".toList, .float infinity)] = .error (.coercion .overflow) ∧
      (SettingsError.coercion .overflow).message? = none :=
  ⟨rfl, rfl⟩

end CommentedCode
