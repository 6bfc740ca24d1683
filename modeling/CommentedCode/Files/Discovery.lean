import CommentedCode.Files.Lookup
import CommentedCode.Ignore.Rules
import CommentedCode.Report.Notice
import CommentedCode.Text.Lowercase
import CommentedCode.Text.Utf8
/-!
# Discovery

Which files a run looks at.  A directory is walked without following links to directories;
ignored directories are not entered, nor is version control data.  The result holds real paths,
each once, in ascending order.
-/
namespace CommentedCode

inductive DiscoveryError
  | notFound (path : Path)
  | pattern (error : Ignore.PatternError)
  | unreadable (path : Path) (fault : Fault)
  | linkLoop (path : Path)

/-- The wording of an error that the user can mend. -/
def DiscoveryError.userMessage? : DiscoveryError → Option Text
  | .notFound path => some ("Path not found: ".toList ++ path.text)
  | _ => none

namespace Discovery

/-- The directory that is never entered. -/
def versionControl : Text :=
  ".git".toList

def ignoreFile : Text :=
  ".gitignore".toList

/-- What a walk keeps and where it turns back; paths are relative to its start. -/
structure Filter where
  accepts : Text → Bool
  ignores : Text → Bool
  leadsToDirectory : List Text → Bool

namespace Filter

def keepsFile (f : Filter) (above : List Text) (name : Text) : Bool :=
  f.accepts name && !f.ignores (Path.joined (above ++ [name]))

def entersDirectory (f : Filter) (above : List Text) (name : Text) : Bool :=
  name ≠ versionControl && !f.ignores (Path.joined (above ++ [name]) ++ ['/'])

end Filter

/-- The files that a walk finds in a listing `above` leads to. -/
def walk (f : Filter) (above : List Text) : Listing → List (List Text)
  | .empty => []
  | .file name _ rest =>
    (if f.keepsFile above name then [above ++ [name]] else []) ++ walk f above rest
  | .link name _ rest =>
    (if !f.leadsToDirectory (above ++ [name]) && f.keepsFile above name then [above ++ [name]]
     else []) ++ walk f above rest
  | .directory name inside rest =>
    (if f.entersDirectory above name then walk f (above ++ [name]) inside else []) ++
      walk f above rest

def ignoreFileIn (directory : Path) : Path :=
  directory.under (Path.ofText ignoreFile)

/-- Rules from lines; a malformed pattern ends the search. -/
def rulesOf (lines : List Text) : Except DiscoveryError (Option Ignore.Rules) :=
  (Ignore.Rules.ofLines? lines).mapError .pattern

/-- The rules in the ignore file of a directory.  A directory without one has none, but one that is
there and may not be read ends the search. -/
def rulesIn (fs : FileSystem) (directory : Path) : Except DiscoveryError (Option Ignore.Rules) :=
  if fs.isFile (ignoreFileIn directory) then
    match fs.read (ignoreFileIn directory) with
    | .ok content => rulesOf (Text.splitAtBreaks (Source.ofBytes content))
    | .error fault => .error (.unreadable (ignoreFileIn directory) fault)
  else .ok none

def acceptedBy (extensions : List Text) (name : Text) : Bool :=
  extensions.contains (Text.lower (Path.suffix name))

/-- The files below a directory, by their paths from the top. -/
def below (fs : FileSystem) (extensions : List Text) (rules : List Ignore.Rules)
    (start : List Text) : List (List Text) :=
  let filter : Filter := {
    accepts := acceptedBy extensions
    ignores := fun path => rules.any (·.ignores path)
    leadsToDirectory := fun parts => fs.isDirectory (Path.absolute (start ++ parts)) }
  match fs.top.at? start with
  | some (.directory inside) => (walk filter [] inside).map (start ++ ·)
  | _ => []

/-- Adds what is not there yet. -/
def union (found more : List (List Text)) : List (List Text) :=
  more.foldl (fun all parts => if all.contains parts then all else all ++ [parts]) found

def resolveAll (fs : FileSystem) : List (List Text) → Except DiscoveryError (List (List Text))
  | [] => .ok []
  | parts :: rest =>
    match fs.resolve? (Path.absolute parts) with
    | none => .error (.linkLoop (Path.absolute parts))
    | some real => (resolveAll fs rest).map (real :: ·)

/-- What a run is asked to look for. -/
structure Query where
  extensions : List Text
  exclude : List Text
  respectGitignore : Bool

/-- The real paths of the files that one path stands for: itself, or what is below it. -/
def filesAt (fs : FileSystem) (q : Query) (excluded : Option Ignore.Rules) (p : Path) :
    Except DiscoveryError (List (List Text)) := do
  if !fs.exists? p then throw (.notFound p)
  let start ← match fs.resolve? p with
    | some parts => pure parts
    | none => throw (.linkLoop p)
  if fs.isFile p then return [start]
  let own ← if q.respectGitignore then rulesIn fs p else pure none
  resolveAll fs (below fs q.extensions (own.toList ++ excluded.toList) start)

def gather (fs : FileSystem) (q : Query) (excluded : Option Ignore.Rules) :
    List (List Text) → List Path → Logged DiscoveryError (List (List Text))
  | found, [] => pure found
  | found, p :: ps => do
    let more ← Logged.ofExcept (filesAt fs q excluded p)
    let all := union found more
    if !fs.isFile p then Logged.tell [.selected p (all.length - found.length)]
    gather fs q excluded all ps

def ascending (paths : List (List Text)) : List (List Text) :=
  paths.mergeSort fun a b => !Path.partsBefore b a

/-- The files that `paths` stand for. -/
def collect (fs : FileSystem) (q : Query) (paths : List Path) :
    Logged DiscoveryError (List (List Text)) := do
  let excluded ← Logged.ofExcept (rulesOf q.exclude)
  let found ← gather fs q excluded [] paths
  return ascending found

end Discovery
end CommentedCode
