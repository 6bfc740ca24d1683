import CommentedCode.Report.Rendering
import Mathlib.Algebra.BigOperators.Group.List.Basic
import Mathlib.Data.List.Basic
/-!
# What is rendered of a report

The listing and the JSON of a report tell of the same files, violations and totals.  Only JSON has
a limit to the digits of its numbers.
-/
namespace CommentedCode

open scoped Naturals

private theorem Json.allWritable_eq (items : List Json) :
    allWritable items = items.all isWritable := by
  induction items with
  | nil => rfl
  | cons item items ih => rw [allWritable, ih, List.all_cons]

private theorem Json.isWritable_texts (items : List Text) : (texts items).isWritable = true := by
  simp [texts, isWritable, allWritable_eq]

private theorem Json.isWritable_option_text (given : Option Text) :
    (Json.option .text given).isWritable = true := by
  cases given <;> rfl

/-- Parts that are joined end with the separator, each of them, if the last one does. -/
theorem Text.join_append {sep : Text} {parts : List Text} (h : parts ≠ []) :
    join sep parts ++ sep = parts.flatMap (· ++ sep) := by
  obtain ⟨front, last, rfl⟩ := parts.eq_nil_or_concat'.resolve_left h
  rw [join_concat, List.flatMap_append, List.flatMap_singleton, List.append_assoc]

/-- A file in the listing: a line that tells why it was skipped, and one for each violation. -/
def FileReport.listing (told : FileReport) : Text :=
  (match told.error with
    | some reason => told.path ++ ": skipped (".toList ++ reason ++ ")\n".toList
    | none => []) ++
  told.violations.flatMap fun v =>
    told.path ++ ":".toList ++ intText v.startLine ++ ": ".toList ++ v.message ++ "\n".toList

private theorem FileReport.lines_eq (told : FileReport) :
    told.lines.flatMap (· ++ ['\n']) = told.listing := by
  rw [lines, listing, List.flatMap_append, List.flatMap_map]
  congr 1
  · cases told.error <;> simp
  · simp

namespace Report

/-- The file reports one after the other, and a line with the totals. -/
def listing (report : Report) : Text :=
  let violations : Nat := (report.files.map (·.violations.length)).sum
  let checked := (report.files.filter (·.error.isNone)).length
  let skipped := (report.files.filter (·.error.isSome)).length
  report.files.flatMap FileReport.listing ++
    (decimalDigits violations ++ " violation(s) in ".toList ++ decimalDigits checked ++
      " file(s)".toList ++
      (if skipped = 0 then [] else ", ".toList ++ decimalDigits skipped ++ " skipped".toList) ++
      "\n".toList)

theorem filesChecked_eq (report : Report) :
    report.filesChecked = (report.files.filter (·.error.isNone)).length := by
  have hsum := List.length_eq_length_filter_add (l := report.files) (·.error.isSome)
  have hnone : (fun told : FileReport => told.error.isNone) = fun told => !told.error.isSome := by
    funext told
    cases told.error <;> rfl
  rw [hnone]
  change report.files.length - report.skipped = _
  have hskipped : report.skipped = (report.files.filter (·.error.isSome)).length := rfl
  omega

theorem text_eq (report : Report) : report.text = report.listing := by
  rw [text, Text.join_append (by simp [lines]), lines, List.flatMap_append, List.flatMap_assoc]
  simp only [FileReport.lines_eq, List.flatMap_singleton]
  rw [listing, totals, filesChecked_eq]
  rfl

theorem hasViolations_iff (report : Report) :
    report.hasViolations = true ↔ ∃ told ∈ report.files, told.violations ≠ [] := by
  rw [Report.hasViolations, decide_eq_true_eq]
  change 0 < (report.files.map (·.violations.length)).sum ↔ _
  rw [List.sum_pos_iff_exists_pos_nat]
  simp [List.length_pos_iff]

/-- The object of a report: its settings, what it tells of each file, and the totals. -/
def object (report : Report) : Json :=
  let violations : Nat := (report.files.map (·.violations.length)).sum
  let checked := (report.files.filter (·.error.isNone)).length
  let skipped := (report.files.filter (·.error.isSome)).length
  .object [("toolVersion", .text "0.1.0".toList), ("settings", report.settings.json),
    ("files", .array (report.files.map fun told => .object [("path", .text told.path),
      ("violations", .array (told.violations.map fun v => .object [("startLine", .int v.startLine),
        ("endLine", .int v.endLine), ("probability", .float v.probability),
        ("message", .text v.message)])),
      ("error", .option .text told.error)])),
    ("filesChecked", .int checked), ("violations", .int violations), ("skipped", .int skipped)]

theorem json_eq (report : Report) : report.json = report.object := by
  rw [json, filesChecked_eq]
  rfl

/-- The integers that are written of a report. -/
def numbers (report : Report) : List Int :=
  report.settings.jobs ::
    ((report.files.flatMap fun told =>
      told.violations.flatMap fun v => [v.startLine, v.endLine]) ++
    [(report.filesChecked : Int), (report.violations : Int), (report.skipped : Int)])

end Report

theorem Settings.isWritable_json_iff (s : Settings) :
    s.json.isWritable = true ↔ s.jobs.natAbs < 10 ^ digitLimit := by
  simp [json, Json.isWritable, Json.membersWritable, Json.isWritable_texts]

theorem FileReport.isWritable_json_iff (told : FileReport) : told.json.isWritable = true ↔
    ∀ n ∈ told.violations.flatMap fun v => [v.startLine, v.endLine],
      n.natAbs < 10 ^ digitLimit := by
  simp [json, Violation.json, Json.isWritable, Json.membersWritable, Json.allWritable_eq,
    Json.isWritable_option_text, -List.mem_flatMap, List.forall_mem_flatMap]

/-- A report can be written if none of its numbers has too many digits. -/
theorem Report.isWritable_json_iff (report : Report) :
    report.json.isWritable = true ↔ ∀ n ∈ report.numbers, n.natAbs < 10 ^ digitLimit := by
  rw [numbers, List.forall_mem_cons, List.forall_mem_append, List.forall_mem_flatMap]
  simp only [← FileReport.isWritable_json_iff]
  simp [json, Json.isWritable, Json.membersWritable, Json.allWritable_eq,
    Settings.isWritable_json_iff]

end CommentedCode
