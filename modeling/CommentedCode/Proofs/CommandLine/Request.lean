import CommentedCode.CommandLine.Run
import CommentedCode.Proofs.Files.Lookup
import CommentedCode.Proofs.Outcome
import CommentedCode.Proofs.Settings.Overriding
/-!
# Settings of a request

Settings come from a file, if it is there, and have the choices of the request on top.  What a check
is asked to exclude is added to what the settings exclude.
-/
namespace CommentedCode

namespace Settings

/-- The file that settings are read from if it is there. -/
def source (root : Path) (named : Option Path) : Path :=
  root.under (named.getD (Path.ofText fileName.toList))

/-- A file that can be read decides on the settings, whether it was named or not. -/
theorem outcome_load {fs : FileSystem} {root : Path} {named : Option Path}
    {content : Utf8.Bytes} (h : fs.read (source root named) = .ok content) :
    (load fs root named).outcome = ofBytes (source root named) content := by
  have hfile := FileSystem.isFile_of_read h
  have hload : load fs root named = ofFile fs (source root named) := by
    cases named with
    | some path => exact if_pos hfile
    | none => exact if_pos hfile
  rw [hload, ofFile, Logged.outcome_bind, h]
  rfl

private theorem outcome_load_of_absent {fs : FileSystem} {root : Path}
    (h : fs.isFile (source root none) = false) : (load fs root none).outcome = .ok default := by
  have hload : load fs root none = (do
      Logged.tell [.noSettingsFile fileName root]
      return default) :=
    if_neg (Bool.not_eq_true _ ▸ h)
  rw [hload]
  rfl

end Settings

namespace Settings.Overrides

private theorem value?_append (before behind : Overrides) (p : Property) :
    value? (before ++ behind) p = (behind.value? p).or (before.value? p) := by
  rw [value?, effective, List.filter_append, assigned_append]
  rfl

private theorem value?_eq_none {o : Overrides} {p : Property} (h : ∀ entry ∈ o, entry.1 ≠ p) :
    o.value? p = none := by
  rw [value?, assigned, Option.map_eq_none_iff, List.find?_eq_none]
  intro entry hentry
  have hmem : entry ∈ o := (List.mem_filter.mp (List.mem_reverse.mp hentry)).1
  simpa using h entry hmem

end Settings.Overrides

namespace CommandLine.Request

open Settings Overrides

private theorem value?_exclude (s : Settings) (r : CheckRequest) :
    Overrides.value? ((Request.check r).overrides s) .exclude =
      if r.exclude.isEmpty then none else some (texts (s.exclude ++ r.exclude)) := by
  have hfront : Overrides.value? (r.choices.overrides ++
      [(.jobs, (r.jobs.map Value.int).getD .null)]) .exclude = none := by
    refine value?_eq_none ?_
    simp [Choices.overrides]
  have hsplit : (Request.check r).overrides s =
      (r.choices.overrides ++ [(.jobs, (r.jobs.map Value.int).getD .null)]) ++
        [(.exclude, if r.exclude.isEmpty then .null else texts (s.exclude ++ r.exclude))] := by
    simp [Request.overrides]
  rw [hsplit, value?_append, hfront, Option.or_none]
  cases r.exclude <;> rfl

theorem exclude_of_override {loaded s : Settings} (hloaded : loaded.InOrder) (r : CheckRequest)
    (h : loaded.override (Overrides.byField ((Request.check r).overrides loaded)) = .ok s) :
    s.exclude = loaded.exclude ++ r.exclude := by
  let asked : Settings := { loaded with exclude := loaded.exclude ++ r.exclude }
  have hvalue : s.value .exclude = asked.value .exclude := by
    refine value_of_override hloaded h ?_
    rw [value?_exclude]
    cases hexclude : r.exclude with
    | nil => simp [asked, value, hexclude]
    | cons first rest => simp [asked, value, hexclude]
  exact List.map_injective_iff.mpr (fun _ _ => Value.text.inj) (Value.list.inj hvalue)

/-- Without a settings file the overrides are applied to the defaults. -/
theorem outcome_settings_of_absent {top : Listing}
    (habsent : top.find? Settings.fileName.toList = none) {request : Request}
    (hnamed : request.choices.settingsFile = none) :
    (request.settings ⟨top, []⟩).outcome =
      (Settings.default.override ((request.overrides .default).map fun (p, v) =>
        (p.field.toList, v))).mapError .settings := by
  have hfile : FileSystem.isFile ⟨top, []⟩ (Settings.source (Path.absolute []) none) = false :=
    FileSystem.isFile_of_find?_none habsent (by decide)
  rw [settings, hnamed, Logged.outcome_bind]
  change Except.mapError _ (Settings.load ⟨top, []⟩ (Path.absolute []) none).outcome >>= _ = _
  rw [Settings.outcome_load_of_absent hfile]
  rfl

end CommandLine.Request
end CommentedCode
