import CommentedCode.CommandLine.Grammar
import CommentedCode.Decimal.Reading
import CommentedCode.Files.Path
/-!
# Requests

The two commands and what can be asked of them: to check files and directories, or to classify
one comment.  Both take the flags that adjust settings; of a flag that is repeated the last
value counts.
-/
namespace CommentedCode.CommandLine

/-- What the flags of both commands choose. -/
structure Choices where
  settingsFile : Option Path
  threshold : Option Float
  skipSequence : Option Text
  skipJavadocs : Option Bool
  verbose : Bool

def Choices.empty : Choices :=
  ⟨none, none, none, none, false⟩

structure CheckRequest where
  choices : Choices
  paths : List Path
  exclude : List Text
  jobs : Option Int
  json : Bool

structure ClassifyRequest where
  choices : Choices
  comment : Text

inductive Request
  | check (request : CheckRequest)
  | classify (request : ClassifyRequest)

def programName : Text :=
  "cocheck".toList

def checkName : Text :=
  "check".toList

def classifyName : Text :=
  "classify".toList

def programOf (command : Text) : Text :=
  programName ++ ' ' :: command

section

variable {σ : Type}

def helpFlag (program : Text) : Flag σ :=
  ⟨["-h".toList, "--help".toList], .leave (.help program)⟩

def switchFlag (name : String) (set : σ → σ) : Flag σ :=
  ⟨[name.toList], .switch fun _ => set⟩

/-- A flag whose value is read by `read?`, where `kind` names what it must be. -/
def valueFlag {α : Type} (name kind : String) (read? : Text → Option α) (set : α → σ → σ) :
    Flag σ :=
  ⟨[name.toList], .value kind fun given => (read? given).map set⟩

def javadocsName : Text :=
  "--skip-javadocs".toList

def noJavadocsName : Text :=
  "--no-skip-javadocs".toList

/-- The flags of both commands; `change` reaches the choices within what is read. -/
def choiceFlags (change : (Choices → Choices) → σ → σ) : List (Flag σ) := [
  valueFlag "--config" "Path" some fun given =>
    change fun c => { c with settingsFile := some (Path.ofText given) },
  valueFlag "--threshold" "float" Reading.float? fun x =>
    change fun c => { c with threshold := some x },
  valueFlag "--skip-sequence" "str" some fun given =>
    change fun c => { c with skipSequence := some given },
  ⟨[javadocsName, noJavadocsName], .switch fun name =>
    change fun c => { c with skipJavadocs := some (name = javadocsName) }⟩,
  switchFlag "--verbose" (change fun c => { c with verbose := true })]

end

namespace CheckRequest

def empty : CheckRequest :=
  ⟨.empty, [], [], none, false⟩

def grammar : Grammar CheckRequest where
  program := programOf checkName
  flags := [
    helpFlag (programOf checkName),
    valueFlag "--exclude" "str" some fun given r => { r with exclude := r.exclude ++ [given] },
    valueFlag "--jobs" "int" Reading.int? fun n r => { r with jobs := some n },
    switchFlag "--json" fun r => { r with json := true }] ++
    choiceFlags fun change r => { r with choices := change r.choices }
  operand := ⟨"PATH".toList, .run, fun given r =>
    .ok ({ r with paths := given.map Path.ofText }, [])⟩

end CheckRequest

namespace ClassifyRequest

def empty : ClassifyRequest :=
  ⟨.empty, []⟩

def grammar : Grammar ClassifyRequest where
  program := programOf classifyName
  flags := helpFlag (programOf classifyName) ::
    choiceFlags fun change r => { r with choices := change r.choices }
  operand := ⟨"TEXT|@FILE|-".toList, .one, fun given r =>
    .ok ({ r with comment := given.headD [] }, [])⟩

end ClassifyRequest

namespace Request

def choices : Request → Choices
  | check r => r.choices
  | classify r => r.choices

/-- Reads a command and its arguments; what the command does not recognise is left over. -/
def ofCommand (words : List Text) : Except Stop (Option Request × List Text) :=
  let command := words.headD []
  if command = checkName then do
    let (r, extras) ← CheckRequest.grammar.read .empty words.tail
    return (some (.check r), extras)
  else if command = classifyName then do
    let (r, extras) ← ClassifyRequest.grammar.read .empty words.tail
    return (some (.classify r), extras)
  else .error (.problem programName (.badChoice "cmd".toList command [checkName, classifyName]))

/-- The program's own flags, and a command that takes all that is left. -/
def grammar : Grammar (Option Request) where
  program := programName
  flags := [
    helpFlag programName,
    ⟨["-v".toList, "--version".toList], .leave .version⟩]
  operand := ⟨"cmd".toList, .remainder, fun given _ => ofCommand given⟩

def ofArguments (given : List Text) : Except Stop Request := do
  match ← grammar.read none given with
  | (some request, []) => return request
  | (_, extras) => throw (.problem programName (.unrecognized extras))

end Request
end CommentedCode.CommandLine
