import CommentedCode.Decimal.Basic
import CommentedCode.Settings.Basic
/-!
# Reports

What a run found: the violations of each file, or why it could not be read.  The totals are
computed from the files.
-/
namespace CommentedCode

open scoped Naturals

structure Violation where
  startLine : Int
  endLine : Int
  probability : Float
  message : Text

structure FileReport where
  path : Text
  violations : List Violation
  error : Option Text

structure Report where
  settings : Settings
  files : List FileReport

namespace Report

def toolName : String :=
  "cocheck"

def toolVersion : String :=
  "0.1.0"

def skipped (r : Report) : Nat :=
  (r.files.filter (·.error.isSome)).length

def filesChecked (r : Report) : Nat :=
  r.files.length - r.skipped

def violations (r : Report) : Nat :=
  (r.files.map (·.violations.length)).sum

def hasViolations (r : Report) : Bool :=
  0 < r.violations

end Report
end CommentedCode
