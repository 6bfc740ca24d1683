import CommentedCode.Proofs.Settings.Building
import CommentedCode.Proofs.Settings.Keys
/-!
# Overrides

Overrides on top of settings that were read from a mapping give what the mapping gives with the
overrides entered in it.  So they can be made in steps or all at once.
-/
namespace CommentedCode

def Value.isNull : Value → Bool
  | .null => true
  | _ => false

namespace Settings

/-- Assignments to properties; null stands for no override. -/
abbrev Overrides := List (Property × Value)

namespace Overrides

/-- The overrides that are not null. -/
def effective (o : Overrides) : Overrides :=
  o.filter fun (_, v) => !v.isNull

/-- The value for a property, if there is one: the last that is not null. -/
def value? (o : Overrides) (p : Property) : Option Value :=
  assigned o.effective p

/-- Overrides by the names of the fields. -/
def byField (o : Overrides) : List (Text × Value) :=
  o.map fun (p, v) => (p.field.toList, v)

end Overrides

private theorem changes_byField (o : Overrides) : changes o.byField = o.effective.byField := by
  rw [changes, Overrides.byField, List.filter_map]
  refine congrArg _ (List.filter_congr fun entry _ => ?_)
  obtain ⟨p, v⟩ := entry
  cases v <;> rfl

private theorem ofField?_field (p : Property) : Property.ofField? p.field.toList = some p := by
  cases p <;> rfl

theorem assigned_append (before behind : List (Property × Value)) (p : Property) :
    assigned (before ++ behind) p = (assigned behind p).or (assigned before p) := by
  rw [assigned, List.reverse_append, List.find?_append, Option.map_or]
  rfl

private theorem assigned_cons (q p : Property) (v : Value) (rest : List (Property × Value)) :
    assigned ((q, v) :: rest) p = (assigned rest p).or (if q = p then some v else none) := by
  rw [← List.singleton_append, assigned_append]
  by_cases h : q = p <;> simp [assigned, h]

/-- Overrides of settings in order are read along with all other values of the settings. -/
theorem override_byField {s : Settings} (hs : s.InOrder) (o : Overrides) :
    s.override o.byField = build (fun p => (o.value? p).or (some (s.value p))) >>= check := by
  have hextras : ((o.effective.byField.map (·.1)).filter fun key =>
      (Property.ofField? key).isNone) = [] := by
    refine List.filter_eq_nil_iff.mpr fun key hkey => ?_
    obtain ⟨entry, hentry, rfl⟩ := List.mem_map.mp hkey
    obtain ⟨⟨p, v⟩, -, rfl⟩ := List.mem_map.mp hentry
    simp [ofField?_field]
  simp only [override, changes_byField, hextras]
  simp only [Overrides.byField, List.filterMap_map, Function.comp_def, ofField?_field,
    Option.map_some]
  by_cases hnone : o.effective = []
  · have hvalue (p : Property) : (o.value? p).or (some (s.value p)) = some (s.value p) := by
      rw [Overrides.value?, hnone]
      rfl
    simp only [hnone, hvalue, build_value]
    exact hs.symm
  · simp [hnone]
    rfl

/-! ### Entries of a mapping -/

theorem recognise_eq_ok_iff {key : Value} {p : Property} :
    recognise key = .ok p ↔ key = .text p.name.toList := by
  constructor
  · intro h
    unfold recognise at h
    split at h
    · split at h
      · cases h
      · rename_i q hq
        obtain rfl := Except.ok.inj h
        exact Property.eq_text_of_ofName? hq
    · cases h
  · rintro rfl
    cases p <;> rfl

/-- Assignments as the entries of a mapping. -/
def byName (given : List (Property × Value)) : List (Value × Value) :=
  given.map fun (p, v) => (.text p.name.toList, v)

/-- The entries that are recognised are those whose keys are the names of properties. -/
theorem assignments_eq_ok_iff {entries : List (Value × Value)} {given : List (Property × Value)} :
    assignments entries = .ok given ↔ entries = byName given := by
  induction entries generalizing given with
  | nil =>
    constructor
    · intro h
      obtain rfl := Except.ok.inj h
      rfl
    · intro h
      rw [List.map_eq_nil_iff.mp h.symm]
      rfl
  | cons entry rest ih =>
    obtain ⟨key, v⟩ := entry
    rw [assignments, bind_ok]
    constructor
    · rintro ⟨p, hp, h⟩
      obtain ⟨later, hlater, h⟩ := bind_ok.mp h
      obtain rfl := Except.ok.inj h
      rw [recognise_eq_ok_iff.mp hp, ih.mp hlater]
      rfl
    · intro h
      obtain ⟨⟨p, w⟩, later, rfl, hentry, hrest⟩ := List.map_eq_cons_iff.mp h.symm
      obtain ⟨rfl, rfl⟩ := Prod.mk.inj hentry
      refine ⟨p, recognise_eq_ok_iff.mpr rfl, ?_⟩
      rw [ih.mpr hrest.symm]
      rfl

theorem ofMapping_byName (given : List (Property × Value)) :
    ofMapping (byName given) = build (assigned given) >>= check := by
  rw [ofMapping, assignments_eq_ok_iff.mpr rfl]
  rfl

theorem ofMapping_eq_ok {entries : List (Value × Value)} {s : Settings}
    (h : ofMapping entries = .ok s) :
    s.InOrder ∧ ∃ given, entries = byName given ∧ build (assigned given) = .ok s := by
  obtain ⟨given, hgiven, h⟩ := bind_ok.mp h
  obtain ⟨built, hbuilt, hcheck⟩ := bind_ok.mp h
  obtain rfl := eq_of_check hcheck
  exact ⟨hcheck, given, assignments_eq_ok_iff.mp hgiven, hbuilt⟩

def isKey (name : Text) : Value → Bool
  | .text cs => cs = name
  | _ => false

/-- Sets the value of a key, which keeps its place or comes last. -/
def setEntry (name : Text) (v : Value) (entries : List (Value × Value)) : List (Value × Value) :=
  if entries.any (isKey name ·.1) then
    entries.map fun (key, w) => (key, if isKey name key then v else w)
  else entries ++ [(.text name, v)]

/-- A mapping with the overrides entered under the names of their properties. -/
def Overrides.enteredIn (o : Overrides) (entries : List (Value × Value)) :
    List (Value × Value) :=
  o.effective.foldl (fun entries (p, v) => setEntry p.name.toList v entries) entries

private theorem isKey_name (p q : Property) :
    isKey p.name.toList (.text q.name.toList) = decide (q = p) := by
  cases p <;> cases q <;> rfl

theorem isSome_assigned {given : List (Property × Value)} {p : Property}
    (h : given.any (·.1 = p) = true) : (assigned given p).isSome = true := by
  rw [assigned, Option.isSome_map, List.find?_isSome]
  obtain ⟨entry, hentry, hp⟩ := List.any_eq_true.mp h
  exact ⟨entry, List.mem_reverse.mpr hentry, hp⟩

private theorem assigned_map_value (given : List (Property × Value)) (p q : Property) (v : Value) :
    assigned (given.map fun (r, w) => (r, if r = p then v else w)) q =
      if q = p then (assigned given q).map fun _ => v else assigned given q := by
  induction given with
  | nil => simp [assigned]
  | cons entry rest ih =>
    obtain ⟨r, w⟩ := entry
    rw [List.map_cons, assigned_cons, assigned_cons, ih]
    cases assigned rest q <;> by_cases h : q = p <;> by_cases hr : r = q <;> simp_all

/-- Setting an entry sets the value that is assigned to its property, and no other. -/
theorem exists_setEntry (p : Property) (v : Value) (given : List (Property × Value)) :
    ∃ later, setEntry p.name.toList v (byName given) = byName later ∧
      ∀ q, assigned later q = if q = p then some v else assigned given q := by
  have hany : (byName given).any (isKey p.name.toList ·.1) = given.any (·.1 = p) := by
    simp only [byName, List.any_map, Function.comp_def, isKey_name]
  rw [setEntry, hany]
  split
  · rename_i hmem
    refine ⟨given.map fun (q, w) => (q, if q = p then v else w), ?_, fun q => ?_⟩
    · simp only [byName, List.map_map, Function.comp_def, isKey_name, decide_eq_true_eq]
    · rw [assigned_map_value]
      split
      · rename_i hq
        obtain ⟨w, hw⟩ := Option.isSome_iff_exists.mp (isSome_assigned hmem)
        rw [hq, hw]
        rfl
      · rfl
  · refine ⟨given ++ [(p, v)], by simp [byName], fun q => ?_⟩
    rw [assigned_append, assigned_cons]
    by_cases h : q = p
    · simp [assigned, h]
    · simp [assigned, h, Ne.symm h]

private theorem exists_enteredIn (o : Overrides) (given : List (Property × Value)) :
    ∃ later, o.enteredIn (byName given) = byName later ∧
      ∀ q, assigned later q = (o.value? q).or (assigned given q) := by
  unfold Overrides.enteredIn Overrides.value?
  generalize o.effective = entries
  induction entries generalizing given with
  | nil => exact ⟨given, rfl, fun q => rfl⟩
  | cons entry rest ih =>
    obtain ⟨p, v⟩ := entry
    obtain ⟨next, hnext, hassigned⟩ := exists_setEntry p v given
    obtain ⟨later, hlater, hall⟩ := ih next
    refine ⟨later, ?_, fun q => ?_⟩
    · change rest.foldl _ (setEntry p.name.toList v (byName given)) = _
      rw [hnext, hlater]
    · rw [hall, hassigned, assigned_cons, Option.or_assoc]
      by_cases h : q = p
      · simp [h]
      · simp [h, Ne.symm h]

/-- Overrides on top of a mapping that is read are those of the mapping in which they stand. -/
theorem override_eq_ofMapping {entries : List (Value × Value)} {s : Settings}
    (h : ofMapping entries = .ok s) (o : Overrides) :
    s.override o.byField = ofMapping (o.enteredIn entries) := by
  obtain ⟨hs, given, rfl, hbuilt⟩ := ofMapping_eq_ok h
  obtain ⟨later, hlater, hassigned⟩ := exists_enteredIn o given
  rw [override_byField hs, hlater, ofMapping_byName, funext hassigned, build_or hbuilt]

/-- A value that some settings have is taken as it is, be it that of an override or not. -/
theorem value_of_override {s t u : Settings} (hs : s.InOrder) {o : Overrides}
    (h : s.override o.byField = .ok t) {p : Property}
    (hp : (o.value? p).or (some (s.value p)) = some (u.value p)) : t.value p = u.value p := by
  rw [override_byField hs] at h
  obtain ⟨built, hbuilt, hcheck⟩ := bind_ok.mp h
  obtain rfl := eq_of_check hcheck
  refine Except.ok.inj ((readValue_of_build hbuilt p).symm.trans ?_)
  rw [← readValue_value u p]
  exact readValue_congr hp

private theorem inOrder_of_override {s t : Settings} (hs : s.InOrder) {o : Overrides}
    (h : s.override o.byField = .ok t) : t.InOrder := by
  rw [override_byField hs] at h
  obtain ⟨built, -, hcheck⟩ := bind_ok.mp h
  exact eq_of_check hcheck ▸ hcheck

private theorem override_override {s t : Settings} (hs : s.InOrder) {o o' merged : Overrides}
    (h : s.override o.byField = .ok t)
    (hmerged : ∀ p, merged.value? p = (o'.value? p).or (o.value? p)) :
    t.override o'.byField = s.override merged.byField := by
  have ht := inOrder_of_override hs h
  rw [override_byField hs] at h
  obtain ⟨built, hbuilt, hcheck⟩ := bind_ok.mp h
  obtain rfl := eq_of_check hcheck
  rw [override_byField ht, override_byField hs, ← build_or hbuilt]
  simp only [hmerged, Option.or_assoc]

/-! ### Steps -/

/-- Steps taken in turn, where a step that fails leaves the settings as they are: the overrides of
the steps that were taken, and the settings in the end. -/
def overrideAll (s : Settings) : List Overrides → List Overrides × Settings
  | [] => ([], s)
  | o :: steps =>
    match s.override o.byField with
    | .ok t => (o :: (overrideAll t steps).1, (overrideAll t steps).2)
    | .error _ => overrideAll s steps

namespace Overrides

/-- The overrides of several steps as those of one: the last step that has one decides. -/
def merged (steps : List Overrides) : Overrides :=
  Property.all.filterMap fun p => (steps.reverse.findSome? (·.value? p)).map (p, ·)

private theorem isNull_of_value? {o : Overrides} {p : Property} {v : Value}
    (h : o.value? p = some v) : v.isNull = false := by
  simpa using (List.mem_filter.mp (mem_of_assigned h)).2

private theorem effective_merged (steps : List Overrides) :
    effective (merged steps) = merged steps := by
  refine List.filter_eq_self.mpr fun entry hentry => ?_
  obtain ⟨p, -, hp⟩ := List.mem_filterMap.mp hentry
  obtain ⟨v, hv, rfl⟩ := Option.map_eq_some_iff.mp hp
  obtain ⟨o, -, ho⟩ := List.exists_of_findSome?_eq_some hv
  simp [isNull_of_value? ho]

private theorem assigned_filterMap (value : Property → Option Value) (ps : List Property)
    (q : Property) : assigned (ps.filterMap fun p => (value p).map (p, ·)) q =
      if q ∈ ps then value q else none := by
  induction ps with
  | nil => rfl
  | cons p ps ih =>
    cases hp : value p with
    | none =>
      rw [List.filterMap_cons_none (by rw [hp]; rfl), ih]
      by_cases h : q = p <;> simp [h, hp]
    | some v =>
      rw [List.filterMap_cons_some (by rw [hp]; rfl), assigned_cons, ih]
      by_cases h : q = p
      · subst h
        by_cases hq : q ∈ ps <;> simp [hp, hq]
      · simp [h, Ne.symm h]

private theorem value?_merged (steps : List Overrides) (p : Property) :
    (merged steps).value? p = steps.reverse.findSome? (·.value? p) := by
  have hall : p ∈ Property.all := by cases p <;> decide
  rw [value?, effective_merged, merged, assigned_filterMap, if_pos hall]

private theorem value?_merged_cons (o : Overrides) (steps : List Overrides) (p : Property) :
    (merged (o :: steps)).value? p = ((merged steps).value? p).or (o.value? p) := by
  rw [value?_merged, value?_merged, List.reverse_cons, List.findSome?_append]
  cases h : o.value? p <;> simp [h]

end Overrides

private theorem override_of_none (s : Settings) {o : Overrides} (h : ∀ p, o.value? p = none) :
    s.override o.byField = .ok s := by
  have hnone : o.effective = [] := by
    refine List.eq_nil_iff_forall_not_mem.mpr fun entry hentry => ?_
    obtain ⟨p, v⟩ := entry
    have hsome := isSome_assigned (List.any_eq_true.mpr ⟨_, hentry, decide_eq_true (rfl : p = p)⟩)
    rw [show assigned o.effective p = none from h p] at hsome
    cases hsome
  have hchanges : changes o.byField = [] := by
    rw [changes_byField, hnone]
    rfl
  simp only [override, hchanges]
  rfl

/-- All steps that were taken amount to one.  The induction is on the steps, with the settings
that each of them finds. -/
theorem override_merged {s : Settings} (hs : s.InOrder) (steps : List Overrides) :
    s.override (Overrides.merged (s.overrideAll steps).1).byField =
      .ok (s.overrideAll steps).2 := by
  induction steps generalizing s with
  | nil => exact s.override_of_none fun p => by rw [Overrides.value?_merged]; rfl
  | cons o steps ih =>
    rw [overrideAll]
    split
    · rename_i t ht
      rw [← override_override hs ht (Overrides.value?_merged_cons o _)]
      exact ih (inOrder_of_override hs ht)
    · exact ih hs

end Settings

open Settings in
/-- Overrides are the same as editing the mapping that the settings were read from.  What they do
not name stays as it is, and steps amount to one step with the merged overrides of those that
were taken. -/
theorem override_edits {entries : List (Value × Value)} {s : Settings}
    (h : ofMapping entries = .ok s) :
    (∀ o : Overrides, s.override o.byField = ofMapping (o.enteredIn entries)) ∧
    (∀ o : Overrides, ∀ t, s.override o.byField = .ok t →
      ∀ p, o.value? p = none → t.value p = s.value p) ∧
    (∀ o : Overrides, (∀ p, o.value? p = none) → s.override o.byField = .ok s) ∧
    ∀ steps, s.override (Overrides.merged (s.overrideAll steps).1).byField =
      .ok (s.overrideAll steps).2 := by
  have hs := (ofMapping_eq_ok h).1
  exact ⟨override_eq_ofMapping h, fun _ _ ht _ hp => value_of_override hs ht (by rw [hp]; rfl),
    fun _ hnone => s.override_of_none hnone, override_merged hs⟩

open Settings in
/-- A threshold is entered behind the number of jobs; a step without jobs fails and is left out. -/
theorem override_edits_jobs :
    let entries : List (Value × Value) := [(.text "jobs".toList, .int 3)]
    let s : Settings := { Settings.default with jobs := 3 }
    let o : Overrides := [(.jobs, .null), (.threshold, .float 0.5)]
    ofMapping entries = .ok s ∧
      s.override o.byField = ofMapping [(.text "jobs".toList, .int 3),
        (.text "classificationThreshold".toList, .float 0.5)] ∧
      s.override (Overrides.merged [o, [(.jobs, .int 2)]]).byField =
        .ok { s with threshold := 0.5, jobs := 2 } := by
  have hread : ofMapping [(.text "jobs".toList, .int 3)] =
      .ok { Settings.default with jobs := 3 } := rfl
  have hall : Settings.overrideAll { Settings.default with jobs := 3 }
      [[(.jobs, .null), (.threshold, .float 0.5)], [(.jobs, .int 0)], [(.jobs, .int 2)]] =
      ([[(.jobs, .null), (.threshold, .float 0.5)], [(.jobs, .int 2)]],
        { Settings.default with threshold := 0.5, jobs := 2 }) := rfl
  obtain ⟨hedit, -, -, hsteps⟩ := override_edits hread
  have hmerged := hsteps
    [[(.jobs, .null), (.threshold, .float 0.5)], [(.jobs, .int 0)], [(.jobs, .int 2)]]
  rw [hall] at hmerged
  exact ⟨hread, hedit _, hmerged⟩

end CommentedCode
