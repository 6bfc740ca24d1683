import CommentedCode.CommandLine.Request
import CommentedCode.Report.Check
import CommentedCode.Report.Rendering
import CommentedCode.Settings.Loading
/-!
# Running requests

A request is answered on standard output.  Errors that the user can mend become a message on
standard error, behind the notices of the chosen level; others are left to the caller.
-/
namespace CommentedCode.CommandLine

inductive RunError
  | load (error : LoadError)
  | settings (error : SettingsError)
  | check (error : CheckError)
  | noComment (path : Path)
  | unreadableComment (path : Path) (fault : Fault)
  | undecodableComment (path : Path) (error : Utf8.Error)
  /-- An answer in JSON has a number of too many digits. -/
  | unwritable

namespace RunError

def unreadable (path : Path) (reason : Text) : Text :=
  "Failed to read comment file ".toList ++ path.text ++ ": ".toList ++ reason

/-- The wording of an error that the user can mend. -/
def userMessage? : RunError → Option Text
  | load error => error.userMessage?
  | settings error => error.message?
  | check error => error.userMessage?
  | noComment path => some ("Comment file not found: ".toList ++ path.text)
  | unreadableComment path fault => some (unreadable path (fault.message path))
  | undecodableComment path error => some (unreadable path error.message.toList)
  | unwritable => none

end RunError

/-- An exit code and what goes to standard output. -/
structure Answer where
  code : Nat
  text : Text

/-- All that a run leaves behind. -/
structure Output where
  code : Nat
  stdout : Text
  stderr : Text

/-- The exit code for arguments and input that the user can mend. -/
def usageCode : Nat :=
  2

namespace Choices

/-- The overrides that the choices amount to; null stands for no override. -/
def overrides (c : Choices) : List (Property × Value) :=
  let given {α : Type} (encode : α → Value) (a : Option α) := (a.map encode).getD .null
  [(.threshold, given .float c.threshold), (.skipSequence, given .text c.skipSequence),
    (.skipJavadocs, given .bool c.skipJavadocs)]

end Choices

namespace Request

/-- Overrides on top of settings; patterns to exclude are added to those of the settings. -/
def overrides (s : Settings) : Request → List (Property × Value)
  | check r =>
    r.choices.overrides ++ [(.jobs, (r.jobs.map Value.int).getD .null),
      (.exclude, if r.exclude.isEmpty then .null else Settings.texts (s.exclude ++ r.exclude))]
  | classify r => r.choices.overrides

def settings (fs : FileSystem) (r : Request) : Logged RunError Settings := do
  let loaded ← (Settings.load fs (Path.absolute fs.here) r.choices.settingsFile).mapError .load
  Logged.ofExcept ((loaded.override
    ((r.overrides loaded).map fun (p, v) => (p.field.toList, v))).mapError .settings)

end Request

/-- Without carriage returns and line feeds at the end. -/
def withoutLastBreaks (cs : Text) : Text :=
  Text.dropLastWhile (fun c => c == '\r' || c == '\n') cs

/-- The comment that an argument stands for: standard input, a file, or itself.  The line breaks of
standard input are those that come in. -/
def commentText (fs : FileSystem) (input : Text) : Text → Except RunError Text
  | ['-'] => .ok (withoutLastBreaks input)
  | '@' :: name =>
    let path := Path.ofText name
    if fs.isFile path then
      match fs.read path with
      | .error fault => .error (.unreadableComment path fault)
      | .ok content =>
        match Source.ofBytes? content with
        | .ok text => .ok (withoutLastBreaks text)
        | .error error => .error (.undecodableComment path error)
    else .error (.noComment path)
  | given => .ok given

/-- The verdict on a comment that starts on line one, as JSON. -/
def verdictJson (s : Settings) (c : Classified Float) : Except RunError Json :=
  let members (message : List (String × Json)) : Json :=
    .object ([("isCode", .bool c.scan.verdict.isCode),
      ("probability", .option .float c.scan.verdict.probability?),
      ("line", .option (fun (i : Nat) => .int (c.comment.startLine + i))
        c.scan.verdict.lineIndex?)] ++ message)
  match c.scan.verdict.probability? with
  | none => .ok (members [])
  | some p =>
    match Message.text? s c.comment.startLine c.comment.endLine (.float p) with
    | some message => .ok (members [("message", .text message)])
    | none => .error (.check .unrounded)

def written (json : Json) : Except RunError Text :=
  match json.written? with
  | some text => .ok text
  | none => .error .unwritable

/-- A report as it is asked for; the exit code tells whether there are violations. -/
def CheckRequest.present (r : CheckRequest) (report : Report) : Except RunError Answer := do
  let text ← if r.json then written report.json else .ok report.text
  return ⟨if report.hasViolations then 1 else 0, text⟩

/-- Checks paths. -/
def CheckRequest.answer (parser : Parser) (schedule : List Nat) (fs : FileSystem)
    (r : CheckRequest) (s : Settings) : Logged RunError Answer := do
  let report ← (Check.runBy parser schedule fs s (Path.absolute fs.here) r.paths).mapError .check
  Logged.ofExcept (r.present report)

def ClassifyRequest.answer (fs : FileSystem) (input : Text) (r : ClassifyRequest) (s : Settings) :
    Logged RunError Answer := do
  let text ← Logged.ofExcept (commentText fs input r.comment)
  let found := Check.outcome s (Comment.ofText text 1)
  Logged.tell (Check.notices found)
  let json ← Logged.ofExcept (verdictJson s found)
  let answer ← Logged.ofExcept (written json)
  return ⟨0, answer⟩

def Request.answer (parser : Parser) (schedule : List Nat) (fs : FileSystem) (input : Text)
    (request : Request) : Logged RunError Answer := do
  let s ← request.settings fs
  match request with
  | .check r => r.answer parser schedule fs s
  | .classify r => r.answer fs input s

/-- The least level of the notices that are shown. -/
def shownLevel (debug verbose : Bool) : Level :=
  if debug then .debug else if verbose then .info else .warning

def finish (least : Level) (answer : Logged RunError Answer) : Except RunError Output :=
  let notices := Notice.linesFrom least answer.notices
  match answer.outcome with
  | .ok a => .ok ⟨a.code, a.text, notices⟩
  | .error error =>
    match error.userMessage? with
    | some message => .ok ⟨usageCode, [], notices ++ Text.trimRight message ++ ['\n']⟩
    | none => .error error

/-- Answers a request; the file system has the working directory, `input` is standard input. -/
def Request.runBy (parser : Parser) (schedule : List Nat) (fs : FileSystem) (debug : Bool)
    (input : Text) (request : Request) : Except RunError Output :=
  finish (shownLevel debug request.choices.verbose) (request.answer parser schedule fs input)

/-- Answers a request, the jobs of a check ending in the order of the files. -/
def Request.run (parser : Parser) (fs : FileSystem) (debug : Bool) (input : Text)
    (request : Request) : Except RunError Output :=
  request.runBy parser [] fs debug input

namespace Stop

def versionText : Text :=
  Report.toolName.toList ++ ' ' :: Report.toolVersion.toList

def usage (program : Text) : Text :=
  "usage: ".toList ++ program ++ " [flags] operands\n".toList

/-- The output of a program that ends before it has a request. -/
def output : Stop → Output
  | version => ⟨0, versionText ++ ['\n'], []⟩
  | help program => ⟨0, usage program, []⟩
  | problem program p =>
    ⟨usageCode, [], usage program ++ program ++ ": error: ".toList ++ p.message ++ ['\n']⟩

end Stop
end CommentedCode.CommandLine
