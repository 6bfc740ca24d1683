import CommentedCode.Classifier.Basic
import CommentedCode.Comment.Capture
import CommentedCode.Files.Discovery
import CommentedCode.Report.Basic
import CommentedCode.Report.Message
import CommentedCode.Report.Pool
/-!
# Checks

Comments are classified and those that are code become violations; sources and files are checked
by the comments that a parser reports of them, and a run checks all files that it finds, one by one
or on several workers.
-/
namespace CommentedCode

inductive CheckError
  | discovery (error : DiscoveryError)
  /-- A reported comment is cut out of the middle of a character. -/
  | undecodable (error : Utf8.Error)
  /-- A number of a message has no two places. -/
  | unrounded

def CheckError.userMessage? : CheckError → Option Text
  | .discovery error => error.userMessage?
  | _ => none

namespace Check

def outcome (s : Settings) (c : Comment) : Classified Float :=
  classify s.options scoreLine c

/-- The violation that a classified comment amounts to, if it is code. -/
def violation? (s : Settings) (c : Classified Float) : Except CheckError (Option Violation) :=
  match c.scan.verdict with
  | .code _ p =>
    match Message.text? s c.comment.startLine c.comment.endLine (.float p) with
    | some message => .ok (some ⟨c.comment.startLine, c.comment.endLine, p, message⟩)
    | none => .error .unrounded
  | _ => .ok none

def violations (s : Settings) : List (Classified Float) → Except CheckError (List Violation)
  | [] => .ok []
  | c :: cs => do
    let first ← violation? s c
    let rest ← violations s cs
    return first.toList ++ rest

def comments (s : Settings) (cs : List Comment) : Except CheckError (List Violation) :=
  violations s (cs.map (outcome s))

/-- What a search that was cut short has to tell. -/
def notices {α : Type} (c : Classified α) : List Notice :=
  match c.scan.verdict with
  | .javadoc => [.javadoc c.comment.startLine c.comment.endLine]
  | .skipped _ => [.skipLine c.comment.startLine c.comment.endLine]
  | _ => []

/-- What is told of a source that is not well-formed. -/
def errorNotices (parser : Parser) (text : Text) : List Notice :=
  (parser.errors? text).toList.map .syntaxErrors

/-- The violations of a source, found with the notices about its comments. -/
def inspect (parser : Parser) (s : Settings) (text : Text) :
    Logged CheckError (List Violation) := do
  Logged.tell (errorNotices parser text)
  let extracted ←
    Logged.ofExcept ((Comment.extract parser.captures text).mapError .undecodable)
  let found := extracted.map (outcome s)
  Logged.tell (found.flatMap notices)
  Logged.ofExcept (violations s found)

def source (parser : Parser) (s : Settings) (text : Text) : Except CheckError (List Violation) :=
  (inspect parser s text).outcome

/-- A path relative to the root of a run, or as it is outside of it. -/
def shownPath (p root : Path) : Text :=
  match p.relativeTo? root with
  | some inside => inside.text
  | none => p.text

/-- Checks one file; what cannot be read is reported. -/
def file (parser : Parser) (fs : FileSystem) (s : Settings) (p root : Path) :
    Logged CheckError FileReport := do
  let shown := shownPath p root
  match fs.read p with
  | .error fault =>
    Logged.tell [.skipping shown (fault.message p)]
    return ⟨shown, [], some (fault.message p)⟩
  | .ok content =>
    let all ← inspect parser s (Source.ofBytes content)
    Logged.tell [.checked shown all.length]
    return ⟨shown, all, none⟩

def files (parser : Parser) (fs : FileSystem) (s : Settings) (root : Path) :
    List (List Text) → Logged CheckError (List FileReport)
  | [] => pure []
  | parts :: rest => do
    let first ← file parser fs s (Path.absolute parts) root
    let later ← files parser fs s root rest
    return first :: later

def query (s : Settings) : Discovery.Query :=
  ⟨s.normalExtensions, s.exclude, s.respectGitignore⟩

/-- The reports on files, in the order of the files.  Several jobs are done side by side. -/
def reports (parser : Parser) (schedule : List Nat) (fs : FileSystem) (s : Settings) (root : Path)
    (found : List (List Text)) : Logged CheckError (List FileReport) :=
  if h : 1 < s.jobs ∧ 1 < found.length then
    Logged.sideBySide s.jobs.toNat (by omega) schedule
      (found.map fun parts => file parser fs s (Path.absolute parts) root)
  else files parser fs s root found

/-- Checks every file that `paths` stand for; paths are shown relative to `root`. -/
def runBy (parser : Parser) (schedule : List Nat) (fs : FileSystem) (s : Settings) (root : Path)
    (paths : List Path) : Logged CheckError Report := do
  let start ← match fs.resolve? root with
    | some parts => pure parts
    | none => Logged.ofExcept (.error (.discovery (.linkLoop root)))
  let found ← (Discovery.collect fs (query s) paths).mapError .discovery
  Logged.tell [.checking found.length s.jobs]
  let all ← reports parser schedule fs s (Path.absolute start) found
  return ⟨s, all⟩

/-- A run whose jobs end in the order of the files. -/
def run (parser : Parser) (fs : FileSystem) (s : Settings) (root : Path) (paths : List Path) :
    Logged CheckError Report :=
  runBy parser [] fs s root paths

end Check
end CommentedCode
