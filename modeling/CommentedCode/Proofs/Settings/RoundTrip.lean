import CommentedCode.Proofs.Report.Legible
import CommentedCode.Proofs.Settings.Reachable
import Mathlib.Data.Set.List
/-!
# Settings written and read back

Settings that a run can have are read back from their own properties, whatever the order of the
entries; so they are from the part of a JSON report that tells them, once the report is read back
from what was printed.  No mapping is read differently in another order.
-/
namespace CommentedCode

mutual

/-- The data that JSON stands for. -/
def Json.value : Json → Value
  | .null => .null
  | .bool b => .bool b
  | .int n => .int n
  | .float x => .float x
  | .text cs => .text cs
  | .array items => .list (Json.values items)
  | .object members => .mapping (Json.entries members)

def Json.values : List Json → List Value
  | [] => []
  | item :: items => item.value :: Json.values items

def Json.entries : List (String × Json) → List (Value × Value)
  | [] => []
  | (name, item) :: members => (.text name.toList, item.value) :: Json.entries members

end

def Json.member? (name : String) : Json → Option Json
  | .object members => members.lookup name
  | _ => none

private theorem Json.value_texts (items : List Text) :
    (Json.texts items).value = Settings.texts items := by
  have hvalues : Json.values (items.map .text) = items.map .text := by
    induction items with
    | nil => rfl
    | cons cs items ih => rw [List.map_cons, Json.values, ih, Json.value, List.map_cons]
  rw [Json.texts, Json.value, hvalues, Settings.texts]

namespace Settings

private theorem value_json (s : Settings) : s.json.value = .mapping (byName s.properties) := by
  simp only [json, Json.value, Json.entries, Json.value_texts]
  rfl

/-! ### The order of entries -/

/-- No name is a key twice. -/
def NamesOnce (entries : List (Value × Value)) : Prop :=
  entries.Pairwise fun entry later => ∀ cs, entry.1 = .text cs → later.1 ≠ .text cs

private theorem NamesOnce.of_perm {entries other : List (Value × Value)} (h : NamesOnce entries)
    (hperm : other.Perm entries) : NamesOnce other := by
  refine (hperm.pairwise_iff ?_).mpr h
  intro entry later hne cs hlater hentry
  exact hne cs hentry hlater

theorem name_injective {p q : Property} (h : p.name.toList = q.name.toList) : p = q := by
  have hp : recognise (.text p.name.toList) = .ok p := recognise_eq_ok_iff.mpr rfl
  have hq : recognise (.text p.name.toList) = .ok q := recognise_eq_ok_iff.mpr (congrArg _ h)
  exact Except.ok.inj (hp.symm.trans hq)

theorem namesOnce_byName_iff {given : List (Property × Value)} :
    NamesOnce (byName given) ↔ (given.map (·.1)).Nodup := by
  rw [NamesOnce, byName, List.pairwise_map, List.Nodup, List.pairwise_map]
  constructor
  · intro h
    apply h.imp
    intro entry later hne heq
    exact hne entry.1.name.toList rfl (by rw [heq])
  · intro h
    apply h.imp
    intro entry later hne cs hentry hlater
    exact hne (name_injective (Value.text.inj (hentry.trans hlater.symm)))

/-- Where properties are assigned once, it does not matter in which order. -/
theorem assigned_eq_some_iff {given : List (Property × Value)} (h : (given.map (·.1)).Nodup)
    {p : Property} {v : Value} : assigned given p = some v ↔ (p, v) ∈ given := by
  constructor
  · exact mem_of_assigned
  · intro hmem
    have hany : given.any (·.1 = p) = true :=
      List.any_eq_true.mpr ⟨(p, v), hmem, decide_eq_true rfl⟩
    obtain ⟨w, hw⟩ := Option.isSome_iff_exists.mp (isSome_assigned hany)
    have hentry : (p, w) = (p, v) := List.inj_on_of_nodup_map h (mem_of_assigned hw) hmem rfl
    rw [hw, (Prod.mk.inj hentry).2]

private theorem assigned_perm {given other : List (Property × Value)} (hperm : other.Perm given)
    (h : (given.map (·.1)).Nodup) : assigned other = assigned given := by
  have hother : (other.map (·.1)).Nodup := (hperm.map _).nodup_iff.mpr h
  funext p
  apply Option.ext
  intro v
  rw [assigned_eq_some_iff hother, assigned_eq_some_iff h, hperm.mem_iff]

private theorem exists_byName_of_perm {entries : List (Value × Value)}
    {given : List (Property × Value)} (h : entries.Perm (byName given)) :
    ∃ other, entries = byName other ∧ other.Perm given := by
  have hinjective : Function.Injective fun entry : Property × Value =>
      ((.text entry.1.name.toList, entry.2) : Value × Value) := by
    intro entry other heq
    obtain ⟨hkey, hvalue⟩ := Prod.mk.inj heq
    exact Prod.ext (name_injective (Value.text.inj hkey)) hvalue
  have hrange : entries ∈ Set.range byName := by
    change entries ∈ Set.range (List.map _)
    rw [Set.range_list_map]
    intro entry hentry
    obtain ⟨named, -, hnamed⟩ := List.mem_map.mp (h.mem_iff.mp hentry)
    exact ⟨named, hnamed⟩
  obtain ⟨other, rfl⟩ := hrange
  exact ⟨other, rfl, (List.map_perm_map_iff hinjective).mp h⟩

private theorem ofMapping_perm {entries other : List (Value × Value)} (h : NamesOnce entries)
    (hperm : other.Perm entries) {s : Settings} (hs : ofMapping entries = .ok s) :
    ofMapping other = .ok s := by
  obtain ⟨hinOrder, given, rfl, hbuild⟩ := ofMapping_eq_ok hs
  obtain ⟨later, rfl, hlater⟩ := exists_byName_of_perm hperm
  rw [ofMapping_byName, assigned_perm hlater (namesOnce_byName_iff.mp h), bind_ok]
  exact ⟨s, hbuild, hinOrder⟩

private theorem ofMapping_perm_iff {entries other : List (Value × Value)} (h : NamesOnce entries)
    (hperm : other.Perm entries) (s : Settings) :
    ofMapping other = .ok s ↔ ofMapping entries = .ok s :=
  ⟨ofMapping_perm (h.of_perm hperm) hperm.symm, ofMapping_perm h hperm⟩

/-! ### Settings read back -/

private theorem nodup_properties (s : Settings) : (s.properties.map (·.1)).Nodup := by
  rw [properties, List.map_map]
  change (Property.all.map id).Nodup
  rw [List.map_id]
  decide

private theorem InOrder.ofMapping_properties {s : Settings} (h : s.InOrder) :
    ofMapping (byName s.properties) = .ok s := by
  have hassigned : assigned s.properties = fun p => some (s.value p) := by
    funext p
    have hall : p ∈ Property.all := by cases p <;> decide
    exact (assigned_eq_some_iff s.nodup_properties).mpr (List.mem_map.mpr ⟨p, hall, rfl⟩)
  rw [ofMapping_byName, hassigned, build_value]
  exact h

end Settings

/-- Settings that were read and overridden are read back from their own properties in any order,
and from what the JSON of a report tells of them, which is read from the text of the report.  In no
mapping does the order matter. -/
theorem settings_round_trip {base : Settings}
    (h : base = Settings.default ∨ ∃ entries, Settings.ofMapping entries = .ok base)
    (steps : List (List (Text × Value))) :
    let s := steps.foldl Settings.afterStep base
    (∀ entries, entries.Perm (Settings.byName s.properties) →
      Settings.ofMapping entries = .ok s) ∧
    (∀ parser schedule fs root paths r,
      (Check.runBy parser schedule fs s root paths).outcome = .ok r →
      (∀ text, r.json.written? = some text → Json.read? text = some r.json) ∧
      ∃ block entries, r.json.member? "settings" = some block ∧ block.value = .mapping entries ∧
        ∀ other, other.Perm entries → Settings.ofMapping other = .ok s) ∧
    ∀ entries other, Settings.NamesOnce entries → other.Perm entries →
      ∀ t, Settings.ofMapping other = .ok t ↔ Settings.ofMapping entries = .ok t := by
  intro s
  have hs : s.InOrder := Settings.inOrder_of_steps h steps
  have honce : Settings.NamesOnce (Settings.byName s.properties) :=
    Settings.namesOnce_byName_iff.mpr s.nodup_properties
  have hread (entries : List (Value × Value))
      (hperm : entries.Perm (Settings.byName s.properties)) : Settings.ofMapping entries = .ok s :=
    Settings.ofMapping_perm honce hperm hs.ofMapping_properties
  refine ⟨hread, ?_, fun entries other hentries hperm => Settings.ofMapping_perm_iff hentries hperm⟩
  intro parser schedule fs root paths r hr
  obtain ⟨hsettings, hprobable⟩ := Check.told_of_runBy hr
  have hthreshold : Double.IsProbability r.settings.threshold := by
    rw [hsettings]
    exact Options.isProbability_of_inRange ((Settings.inOrder_iff s).mp hs).1
  refine ⟨fun text => Report.read?_written hthreshold hprobable, r.settings.json,
    Settings.byName s.properties, rfl, ?_, hread⟩
  rw [hsettings, Settings.value_json]

theorem settings_round_trip_reversed :
    let steps : List (List (Text × Value)) := [[("jobs".toList, .text ['4'])]]
    let s := steps.foldl Settings.afterStep Settings.default
    s.jobs = 4 ∧ Settings.ofMapping (Settings.byName s.properties).reverse = .ok s := by
  intro steps s
  have hread := (settings_round_trip (.inl rfl) steps).1
  exact ⟨rfl, hread _ (List.reverse_perm _)⟩

end CommentedCode
