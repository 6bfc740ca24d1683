import CommentedCode.Report.Basic
import CommentedCode.Text.Json
/-!
# Rendered reports

A report as text, one line for each violation and each file that was skipped, and as JSON.
-/
namespace CommentedCode

namespace FileReport

/-- Why the file was skipped, and its violations in order. -/
def lines (f : FileReport) : List Text :=
  (f.error.map fun reason => f.path ++ ": skipped (".toList ++ reason ++ [')']).toList ++
    f.violations.map fun v => f.path ++ ':' :: intText v.startLine ++ ':' :: ' ' :: v.message

end FileReport

namespace Report

def totals (r : Report) : Text :=
  decimalDigits r.violations ++ " violation(s) in ".toList ++ decimalDigits r.filesChecked ++
    " file(s)".toList ++
    (if r.skipped = 0 then [] else ", ".toList ++ decimalDigits r.skipped ++ " skipped".toList)

def lines (r : Report) : List Text :=
  r.files.flatMap (·.lines) ++ [r.totals]

def text (r : Report) : Text :=
  Text.join ['\n'] r.lines ++ ['\n']

end Report

def Settings.json (s : Settings) : Json :=
  .object [
    (Property.threshold.name, .float s.threshold),
    (Property.skipSequence.name, .text s.skipSequence),
    (Property.skipJavadocs.name, .bool s.skipJavadocs),
    (Property.message.name, .text s.message),
    (Property.extensions.name, .texts s.extensions),
    (Property.exclude.name, .texts s.exclude),
    (Property.respectGitignore.name, .bool s.respectGitignore),
    (Property.jobs.name, .int s.jobs)]

def Violation.json (v : Violation) : Json :=
  .object [("startLine", .int v.startLine), ("endLine", .int v.endLine),
    ("probability", .float v.probability), ("message", .text v.message)]

def FileReport.json (f : FileReport) : Json :=
  .object [("path", .text f.path), ("violations", .array (f.violations.map (·.json))),
    ("error", .option .text f.error)]

def Report.json (r : Report) : Json :=
  .object [("toolVersion", .text Report.toolVersion.toList), ("settings", r.settings.json),
    ("files", .array (r.files.map (·.json))), ("filesChecked", .int r.filesChecked),
    ("violations", .int r.violations), ("skipped", .int r.skipped)]

end CommentedCode
