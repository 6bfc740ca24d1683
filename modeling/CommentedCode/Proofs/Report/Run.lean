import CommentedCode.Proofs.Files.Returning
import CommentedCode.Proofs.Report.LineBreaks
import CommentedCode.Proofs.Report.Pool
import CommentedCode.Proofs.Settings.Reading
/-!
# Runs that return

Where there are no symbolic links a run over existing paths returns a report, whatever the files
hold, unless the rules fail: a pattern is malformed, one to exclude or one in the ignore file of a
directory that is walked, or such an ignore file may not be read.  Neither error is worded for the
user.
-/
namespace CommentedCode

namespace Check

/-- What a report says about a file: why it was not read, or the violations of its source. -/
inductive Reported (parser : Parser) (fs : FileSystem) (s : Settings) (root p : Path) :
    FileReport → Prop
  | unread {fault : Fault} :
      fs.read p = .error fault →
        Reported parser fs s root p ⟨shownPath p root, [], some (fault.message p)⟩
  | checked {content : Utf8.Bytes} {vs : List Violation} :
      fs.read p = .ok content → source parser s (Source.ofBytes content) = .ok vs →
        Reported parser fs s root p ⟨shownPath p root, vs, none⟩

variable {parser : Parser}

section

variable (hparser : parser.KeepsCharacters) {s : Settings}
  (hs : Options.inRange s.threshold = true) (fs : FileSystem) (root : Path)
include hparser hs

/-- A file is checked whatever it holds, and also if it cannot be read. -/
theorem exists_file (p : Path) :
    ∃ report, (file parser fs s p root).outcome = .ok report ∧
      Reported parser fs s root p report := by
  cases hread : fs.read p with
  | error fault =>
    refine ⟨⟨shownPath p root, [], some (fault.message p)⟩, ?_, .unread hread⟩
    simp only [file, hread]
    rfl
  | ok content =>
    obtain ⟨vs, hvs⟩ := exists_source hs (hparser (Source.ofBytes content))
    refine ⟨⟨shownPath p root, vs, none⟩, ?_, .checked hread hvs⟩
    rw [outcome_file_of_read hread, hvs]
    rfl

theorem exists_files (found : List (List Text)) :
    ∃ reports, (files parser fs s root found).outcome = .ok reports ∧
      List.Forall₂ (fun parts => Reported parser fs s root (Path.absolute parts)) found
        reports := by
  induction found with
  | nil => exact ⟨[], rfl, .nil⟩
  | cons parts found ih =>
    obtain ⟨first, hfirst, hreported⟩ := exists_file hparser hs fs root (Path.absolute parts)
    obtain ⟨later, hlater, hall⟩ := ih
    refine ⟨first :: later, ?_, .cons hreported hall⟩
    rw [files, Logged.outcome_bind, hfirst]
    change (files parser fs s root found >>= _).outcome = _
    rw [Logged.outcome_bind, hlater]
    rfl

end

/-- All rules of a run can be read: the patterns are well-formed, and so are those of the ignore
files, which may be read. -/
structure ReadsPatterns (fs : FileSystem) (s : Settings) (paths : List Path) : Prop where
  exclude : ∀ line ∈ Ignore.Rules.patternLines s.exclude, Ignore.WellFormed line
  ignoreFiles : ∀ p ∈ paths, Discovery.ReadsAt fs (query s) p

theorem outcome_files (parser : Parser) (fs : FileSystem) (s : Settings) (root : Path)
    (found : List (List Text)) : (files parser fs s root found).outcome =
      found.mapM fun parts => (file parser fs s (Path.absolute parts) root).outcome := by
  induction found with
  | nil => rfl
  | cons parts found ih =>
    rw [files, Logged.outcome_bind, List.mapM_cons, ← ih]
    refine congrArg _ (funext fun first => ?_)
    rw [Logged.outcome_bind]
    rfl

private theorem outcome_reports (schedule : List Nat) (fs : FileSystem) (s : Settings) (root : Path)
    (found : List (List Text)) : (reports parser schedule fs s root found).outcome =
      (files parser fs s root found).outcome := by
  rw [reports]
  split
  · rw [Logged.outcome_sideBySide, List.mapM_map, outcome_files]
    rfl
  · rfl

/-- A run collects the files and checks them all, whatever the schedule. -/
theorem outcome_runBy (parser : Parser) (schedule : List Nat) {fs : FileSystem} {root : Path}
    {start : List Text} (h : fs.resolve? root = some start) (s : Settings) (paths : List Path) :
    (runBy parser schedule fs s root paths).outcome =
      (Discovery.collect fs (query s) paths).outcome.mapError .discovery >>= fun found =>
        (files parser fs s (Path.absolute start) found).outcome.map (⟨s, ·⟩) := by
  simp only [runBy, h]
  change (Logged.mapError _ _ >>= _).outcome = _
  rw [Logged.outcome_bind]
  refine congrArg _ (funext fun found => ?_)
  change (reports parser schedule fs s (Path.absolute start) found >>= _).outcome = _
  rw [Logged.outcome_bind, outcome_reports]
  rfl

end Check

end CommentedCode
