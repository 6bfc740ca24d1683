import CommentedCode.Proofs.Files.Path
import CommentedCode.Proofs.Report.Rendering
import CommentedCode.Proofs.Report.Run
/-!
# Intact reports

A report has the files that are found, each once and under a path of its own, and says of each what
a check of that file alone says.  Its totals fit the files.
-/
namespace CommentedCode

namespace Discovery

variable {fs : FileSystem} (htree : fs.top.IsTree)
include htree

private theorem exists_at?_of_mem_below {extensions : List Text} {rules : List Ignore.Rules}
    {start parts : List Text} (h : parts ∈ below fs extensions rules start) :
    ∃ node, fs.top.at? parts = some node := by
  cases hstart : fs.top.at? start with
  | none => simp [below, hstart] at h
  | some node =>
    cases node with
    | file content => simp [below, hstart] at h
    | link target => simp [below, hstart] at h
    | directory inside =>
      obtain ⟨r, node, rfl, hat, -⟩ := (mem_below_iff htree hstart parts).mp h
      exact ⟨node, by rw [Listing.at?_append hstart, hat]⟩

private theorem isComponent_of_at? {parts : List Text} {node : Node}
    (hat : fs.top.at? parts = some node) : ∀ name ∈ parts, Path.IsComponent name :=
  fun name hname => Path.isComponent_of_isName (htree.isName_of_at? hat name hname)

variable (hlinks : FileSystem.LoopFree fs.top)
include hlinks

private theorem isComponent_of_filesAt {q : Query} {excluded : Option Ignore.Rules} {p : Path}
    (hp : fs.exists? p = true) {files : List (List Text)}
    (h : filesAt fs q excluded p = .ok files) :
    ∀ parts ∈ files, ∀ name ∈ parts, Path.IsComponent name := by
  obtain ⟨start, hstart⟩ := Option.isSome_iff_exists.mp (hlinks.isSome_resolve? p)
  cases hfile : fs.isFile p with
  | true =>
    rw [filesAt_file hfile hstart] at h
    obtain rfl := Except.ok.inj h
    obtain ⟨node, hstat⟩ := FileSystem.exists_stat hp
    obtain ⟨parts, hparts, hat⟩ := FileSystem.resolve?_of_stat hstat
    obtain rfl := Option.some.inj (hparts.symm.trans hstart)
    exact List.forall_mem_singleton.mpr (isComponent_of_at? htree hat)
  | false =>
    rw [filesAt_walked hp hfile hstart] at h
    obtain ⟨own, -, hall⟩ := bind_ok.mp h
    intro parts hparts
    obtain ⟨named, hnamed, hresolves⟩ := (resolveAll_ok hall).mp hparts
    obtain ⟨node, hat⟩ := exists_at?_of_mem_below htree hnamed
    obtain ⟨n, there, hthere, hleads⟩ := hlinks.exists_resolve? (Path.absolute named)
    obtain rfl := Option.some.inj (hthere.symm.trans hresolves)
    exact hleads.isComponent nofun (isComponent_of_at? htree hat)

private theorem isComponent_of_collect {q : Query} {paths : List Path}
    (hpaths : ∀ p ∈ paths, fs.exists? p = true) {found : List (List Text)}
    (h : (collect fs q paths).outcome = .ok found) :
    ∀ parts ∈ found, ∀ name ∈ parts, Path.IsComponent name := by
  obtain ⟨excluded, hmem⟩ := mem_iff_of_collect h
  intro parts hparts
  obtain ⟨p, hp, more, hfiles, hmore⟩ := (hmem parts).mp hparts
  exact isComponent_of_filesAt htree hlinks (hpaths p hp) hfiles parts hmore

end Discovery

namespace Check

/-- A path as a report shows it: from the root of the run on if it lies below, else as it is. -/
structure Shown (start parts : List Text) (shown : Text) : Prop where
  inside : ∀ below, parts = start ++ below → shown = Path.text ⟨[], below⟩
  outside : ¬start <+: parts → shown = (Path.absolute parts).text

private theorem shownPath_below (start below : List Text) :
    shownPath (Path.absolute (start ++ below)) (Path.absolute start) = Path.text ⟨[], below⟩ := by
  have hafter : Path.partsAfter? start (start ++ below) = some below :=
    Path.partsAfter?_eq_some_iff.mpr rfl
  simp [shownPath, Path.relativeTo?, Path.absolute, hafter]

private theorem shownPath_outside {start parts : List Text} (h : ¬start <+: parts) :
    shownPath (Path.absolute parts) (Path.absolute start) = (Path.absolute parts).text := by
  have hafter : Path.partsAfter? start parts = none := by
    rw [Option.eq_none_iff_forall_ne_some]
    intro below hbelow
    exact h ⟨below, (Path.partsAfter?_eq_some_iff.mp hbelow).symm⟩
  simp [shownPath, Path.relativeTo?, Path.absolute, hafter]

private theorem shown_shownPath (start parts : List Text) :
    Shown start parts (shownPath (Path.absolute parts) (Path.absolute start)) := by
  constructor
  · rintro below rfl
    exact shownPath_below start below
  · exact shownPath_outside

private theorem under_ofText_shownPath (start : List Text) {parts : List Text}
    (h : ∀ name ∈ parts, Path.IsComponent name) :
    (Path.absolute start).under
        (Path.ofText (shownPath (Path.absolute parts) (Path.absolute start))) =
      Path.absolute parts := by
  by_cases hprefix : start <+: parts
  · obtain ⟨below, rfl⟩ := hprefix
    rw [shownPath_below, Path.ofText_relative (List.forall_mem_append.mp h).2]
    rfl
  · rw [shownPath_outside hprefix, Path.ofText_absolute h]
    rfl

private theorem nodup_shownPath (start : List Text) {found : List (List Text)}
    (hnodup : found.Nodup) (h : ∀ parts ∈ found, ∀ name ∈ parts, Path.IsComponent name) :
    (found.map fun parts =>
      shownPath (Path.absolute parts) (Path.absolute start)).Nodup := by
  refine hnodup.map_on fun parts hparts other hother hsame => ?_
  have hread := congrArg (fun shown => (Path.absolute start).under (Path.ofText shown)) hsame
  rw [under_ofText_shownPath start (h parts hparts),
    under_ofText_shownPath start (h other hother)] at hread
  exact congrArg Path.parts hread

section

variable {parser : Parser} {fs : FileSystem} {s : Settings}

private theorem file_jobs (parser : Parser) (fs : FileSystem) (s : Settings) (jobs : Int)
    (p root : Path) : file parser fs { s with jobs := jobs } p root = file parser fs s p root := by
  have hviolations (cs : List (Classified Float)) :
      violations { s with jobs := jobs } cs = violations s cs := by
    induction cs with
    | nil => rfl
    | cons c cs ih => rw [violations, violations, ih]; rfl
  have hinspect (text : Text) :
      inspect parser { s with jobs := jobs } text = inspect parser s text := by
    simp only [inspect, hviolations]
    rfl
  simp only [file, hinspect]

theorem files_jobs (parser : Parser) (fs : FileSystem) (s : Settings) (jobs : Int) (root : Path)
    (found : List (List Text)) :
    files parser fs { s with jobs := jobs } root found = files parser fs s root found := by
  induction found with
  | nil => rfl
  | cons parts found ih => rw [files, files, file_jobs, ih]

private theorem reported_of_file (hparser : parser.KeepsCharacters)
    (hs : Options.inRange s.threshold = true) {root p : Path} {report : FileReport}
    (h : (file parser fs s p root).outcome = .ok report) : Reported parser fs s root p report := by
  obtain ⟨found, hfound, hreported⟩ := exists_file hparser hs fs root p
  obtain rfl := Except.ok.inj (hfound.symm.trans h)
  exact hreported

variable {root p : Path} {report : FileReport} (h : Reported parser fs s root p report)
include h

private theorem Reported.path_eq : report.path = shownPath p root := by
  cases h <;> rfl

private theorem Reported.violations_eq_nil (herror : report.error.isSome = true) :
    report.violations = [] := by
  cases h with
  | unread => rfl
  | checked => cases herror

end

/-- A report on the files that are found, start being the root of the run. -/
structure Intact (parser : Parser) (fs : FileSystem) (s : Settings) (paths : List Path)
    (start : List Text) (found : List (List Text)) (report : Report) : Prop where
  collected : (Discovery.collect fs (query s) paths).outcome = .ok found
  ascending : found.Pairwise (· < ·)
  alone : List.Forall₂ (fun parts told =>
    (file parser fs s (Path.absolute parts) (Path.absolute start)).outcome = .ok told) found
      report.files
  shown : List.Forall₂ (fun parts told => Shown start parts told.path) found report.files
  distinct : (report.files.map (·.path)).Nodup
  unread : ∀ told ∈ report.files, told.error.isSome = true → told.violations = []
  checked : report.filesChecked = (report.files.filter (·.error.isNone)).length
  counted : report.filesChecked + report.skipped = found.length
  summed : report.violations = (report.files.map (·.violations.length)).sum

private theorem filesChecked_add_skipped (report : Report) :
    report.filesChecked + report.skipped = report.files.length := by
  have hle : report.skipped ≤ report.files.length := List.length_filter_le ..
  rw [Report.filesChecked]
  omega

theorem intact_of_files {parser : Parser} (hparser : parser.KeepsCharacters) {fs : FileSystem}
    (htree : fs.top.IsTree) (hlinks : FileSystem.LoopFree fs.top) {s : Settings}
    (hs : Options.inRange s.threshold = true) {paths : List Path}
    (hpaths : ∀ p ∈ paths, fs.exists? p = true) {start : List Text} {found : List (List Text)}
    (hfound : (Discovery.collect fs (query s) paths).outcome = .ok found)
    {reports : List FileReport}
    (hreports : (files parser fs s (Path.absolute start) found).outcome = .ok reports) :
    Intact parser fs s paths start found ⟨s, reports⟩ := by
  rw [outcome_files] at hreports
  have halone := forall₂_of_mapM_ok hreports
  have hascending := Discovery.pairwise_of_collect hfound
  have hplain := Discovery.isComponent_of_collect htree hlinks hpaths hfound
  have hpath (parts : List Text) (told : FileReport)
      (h : (file parser fs s (Path.absolute parts) (Path.absolute start)).outcome = .ok told) :
      told.path = shownPath (Path.absolute parts) (Path.absolute start) :=
    (reported_of_file hparser hs h).path_eq
  have hshown : reports.map (·.path) = found.map fun parts =>
      shownPath (Path.absolute parts) (Path.absolute start) := by
    rw [eq_comm, ← List.forall₂_eq_eq_eq, List.forall₂_map_left_iff, List.forall₂_map_right_iff]
    exact halone.imp fun parts told h => (hpath parts told h).symm
  exact {
    collected := hfound
    ascending := hascending
    alone := halone
    shown := halone.imp fun parts told h => hpath parts told h ▸ shown_shownPath start parts
    distinct := hshown ▸ nodup_shownPath start (hascending.imp ne_of_lt) hplain
    unread := fun told htold herror => by
      obtain ⟨parts, -, hfile⟩ := exists_of_mem_mapM_ok hreports htold
      exact (reported_of_file hparser hs hfile).violations_eq_nil herror
    checked := Report.filesChecked_eq ⟨s, reports⟩
    counted := halone.length_eq ▸ filesChecked_add_skipped ⟨s, reports⟩
    summed := rfl }

end Check
end CommentedCode
