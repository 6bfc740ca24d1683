import CommentedCode.CommandLine.Run
/-!
# The program

Reads the arguments, takes a snapshot of the files that they can lead to, and writes what the
run leaves behind.
-/
namespace CommentedCode.Program

open CommandLine

/-- A directory and the name of a path as seen from it. -/
abbrev Place := IO.FS.DirEntry

/-- Files so far, and the paths that links lead to. -/
structure Snapshot where
  top : Listing
  pending : List Text

def textOf (s : String) : Text :=
  s.toList

def entryKind (place : Place) : IO (Option IO.FS.FileType) := do
  try
    return some (← place.path.symlinkMetadata).type
  catch _ => return none

/-- Where a link leads in the end; a link that leads nowhere is said to lead to its own inside. -/
def linkTarget (place : Place) : IO Text := do
  try
    return textOf (← IO.FS.realPath place.path).toString
  catch _ => return textOf (place.path.toString ++ "/.missing")

/-- The bytes of a file, unless it may not be read. -/
def content (place : Place) : IO (Option Utf8.Bytes) := do
  try
    return some (← IO.FS.readBinFile place.path).toList
  catch _ => return none

def entries (place : Place) : IO (List Place) := do
  try
    return (← place.path.readDir).toList
  catch _ => return []

mutual

/-- What is at a place, with the targets of the links below it. -/
partial def node? (place : Place) : IO (Option Node × List Text) := do
  match ← entryKind place with
  | some .dir =>
    let (inside, targets) ← listing (← entries place)
    return (some (.directory inside), targets)
  | some .symlink =>
    let target ← linkTarget place
    return (some (.link target), [target])
  | some .file => return (some (.file (← content place)), [])
  | _ => return (none, [])

partial def listing : List Place → IO (Listing × List Text)
  | [] => return (.empty, [])
  | place :: rest => do
    let name := textOf place.fileName
    let (node, targets) ←
      if name = Discovery.versionControl then pure (some (.directory .empty), [])
      else node? place
    let (later, more) ← listing rest
    match node with
    | some node => return (Listing.entry name node later, targets ++ more)
    | none => return (later, targets ++ more)

end

/-- Adds what an absolute path leads to, link by link; `above` has been passed already. -/
partial def addPath (base : Place) (above : List Text) (s : Snapshot) :
    List Text → IO Snapshot
  | [] => return s
  | name :: rest => do
    let parts := above ++ [name]
    let place : Place := { base with fileName := String.ofList (Path.absolute parts).text }
    match ← entryKind place with
    | some .symlink =>
      let target ← linkTarget place
      let onward := target ++ '/' :: Path.joined rest
      return ⟨s.top.put (.link target) parts, onward :: s.pending⟩
    | _ =>
      if rest.isEmpty then
        let (node, targets) ← node? place
        let top := (node.map (s.top.put · parts)).getD s.top
        return ⟨top, targets ++ s.pending⟩
      addPath base parts s rest

/-- Adds all pending paths, each once. -/
partial def complete (base : Place) (done : List Text) (s : Snapshot) : IO Listing :=
  match s.pending with
  | [] => return s.top
  | path :: rest => do
    let s : Snapshot := { s with pending := rest }
    if done.contains path then complete base done s
    else
      complete base (path :: done) (← addPath base [] s (Path.ofText path).parts)

/-- The paths that a request names. -/
def namedPaths : Request → List Path
  | .check r => r.choices.settingsFile.toList ++ r.paths
  | .classify r => r.choices.settingsFile.toList ++
    match r.comment with
    | '@' :: name => [Path.ofText name]
    | _ => []

/-- A path as it is from the root directory on, without going up. -/
def fromTop (here : Path) (path : Path) : List Text :=
  Path.collapsed (here.under path).parts

def snapshot (request : Request) : IO FileSystem := do
  let directory ← IO.currentDir
  let here := Path.ofText (textOf directory.toString)
  let paths := here :: namedPaths request
  let pending := paths.map fun p => (Path.absolute (fromTop here p)).text
  return ⟨← complete ⟨directory, ""⟩ [] ⟨.empty, pending⟩, here.parts⟩

/-- Standard input, if the request asks for it. -/
def input : Request → IO Text
  | .classify ⟨_, ['-']⟩ => do
    let mut all := ""
    let stream ← IO.getStdin
    repeat
      let line ← stream.getLine
      if line.isEmpty then break
      all := all ++ line
    return textOf all
  | _ => return []

def isDebugging : IO Bool := do
  return ((← IO.getEnv "COCHECK_DEBUG").getD "") ≠ ""

def write (o : Output) : IO UInt32 := do
  (← IO.getStderr).putStr (String.ofList o.stderr)
  (← IO.getStdout).putStr (String.ofList o.stdout)
  return UInt32.ofNat o.code

def failedText : Text :=
  programName ++ ": the run failed\n".toList

end CommentedCode.Program

open CommentedCode CommandLine in
def main (arguments : List String) : IO UInt32 := do
  match Request.ofArguments (arguments.map Program.textOf) with
  | .error stop => Program.write stop.output
  | .ok request =>
    let files ← Program.snapshot request
    let input ← Program.input request
    match request.run .lexical files (← Program.isDebugging) input with
    | .ok output => Program.write output
    | .error _ => Program.write ⟨1, [], Program.failedText⟩
