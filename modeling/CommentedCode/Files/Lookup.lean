import CommentedCode.Decimal.Notation
import CommentedCode.Files.Listing
import CommentedCode.Text.Quoted
/-!
# Lookup

Paths are looked up component by component.  To open what a path names, a symbolic link is
replaced by its target, at most forty times; the walk goes on behind a component that is missing
and tells why there is nothing.  The real path of a file has no such bound: links are followed as
long as none is met while it is being followed.
-/
namespace CommentedCode

inductive Fault
  | missing
  | denied
  | notDirectory
  | isDirectory
  | linkLoop
deriving DecidableEq, Repr

namespace Fault

def number : Fault → Nat
  | missing => 2
  | denied => 13
  | notDirectory => 20
  | isDirectory => 21
  | linkLoop => 40

def reason : Fault → String
  | missing => "No such file or directory"
  | denied => "Permission denied"
  | notDirectory => "Not a directory"
  | isDirectory => "Is a directory"
  | linkLoop => "Too many levels of symbolic links"

/-- The message of a fault at a path. -/
def message (f : Fault) (p : Path) : Text :=
  "[Errno ".toList ++ decimalDigits f.number ++ "] ".toList ++ f.reason.toList ++
    ": ".toList ++ Quoted.ofText p.text

end Fault

/-- Where a path leads, by components from the top, and the first fault on the way. -/
structure Reached where
  parts : List Text
  fault : Option Fault
deriving DecidableEq, Repr

/-- All files, and the directory that relative paths start from. -/
structure FileSystem where
  top : Listing
  here : List Text

namespace FileSystem

def linkBound : Nat :=
  40

/-- Follows components from a directory; none if links lead on and on. -/
def follow (top : Listing) (links : Nat) (reached : List Text) (fault : Option Fault) :
    List Text → Option Reached
  | [] => some ⟨reached, fault⟩
  | name :: rest =>
    match top.at? reached with
    | some (.directory inside) =>
      if name = ['.', '.'] then follow top links reached.dropLast fault rest
      else
        match inside.find? name with
        | some (.link target) =>
          match links with
          | 0 => none
          | links + 1 =>
            let target := Path.ofText target
            follow top links (if target.isAbsolute then [] else reached) fault
              (target.parts ++ rest)
        | some _ => follow top links (reached ++ [name]) fault rest
        | none => follow top links (reached ++ [name]) (fault.or (some .missing)) rest
    | node =>
      let here := if node.isSome then Fault.notDirectory else .missing
      let next := if name = ['.', '.'] then reached.dropLast else reached ++ [name]
      follow top links next (fault.or (some here)) rest
termination_by parts => (links, parts.length)

/-- Where a path starts. -/
def startOf (fs : FileSystem) (p : Path) : List Text :=
  if p.isAbsolute then [] else fs.here

def reach (fs : FileSystem) (p : Path) : Option Reached :=
  follow fs.top linkBound (fs.startOf p) none p.parts

/-- How many links are not being followed. -/
private def linksLeft (top : Listing) (passing : List (List Text)) : Nat :=
  (top.linkPaths.filter fun link => !passing.contains link).length

private theorem linksLeft_cons_lt {top : Listing} {passing : List (List Text)}
    {link : List Text} {target : Text} (hat : top.at? link = some (.link target))
    (hnew : ¬passing.contains link = true) :
    linksLeft top (link :: passing) < linksLeft top passing := by
  have hmem : link ∈ top.linkPaths.filter fun link => !passing.contains link :=
    List.mem_filter.mpr ⟨Listing.mem_linkPaths hat, by simpa using hnew⟩
  have hfilter : (top.linkPaths.filter fun other => !(link :: passing).contains other) =
      (top.linkPaths.filter fun other => !passing.contains other).filter (· ≠ link) := by
    rw [List.filter_filter]
    apply List.filter_congr
    intro other _
    by_cases h : other = link <;> simp [h]
  rw [linksLeft, linksLeft, hfilter]
  exact List.length_filter_lt_length_iff_exists.mpr ⟨link, hmem, by simp⟩

/-- Follows every link on the way from a directory, `passing` being those that lead there.  If one
of them is met again, it stays, and so does all that is left. -/
def real (top : Listing) (passing : List (List Text)) (reached : List Text) :
    List Text → Except (List Text) (List Text)
  | [] => .ok reached
  | name :: rest =>
    if name = ['.', '.'] then real top passing reached.dropLast rest
    else
      match _ : top.at? (reached ++ [name]) with
      | some (.link target) =>
        if _ : passing.contains (reached ++ [name]) then .error (reached ++ name :: rest)
        else
          let target := Path.ofText target
          match real top ((reached ++ [name]) :: passing)
              (if target.isAbsolute then [] else reached) target.parts with
          | .ok there => real top passing there rest
          | .error kept => .error (kept ++ rest)
      | _ => real top passing (reached ++ [name]) rest
termination_by parts => (linksLeft top passing, parts.length)
decreasing_by
  · exact Prod.Lex.right _ (Nat.lt_succ_self _)
  · exact Prod.Lex.left _ _ (linksLeft_cons_lt ‹_› ‹_›)
  · exact Prod.Lex.right _ (Nat.lt_succ_self _)
  · exact Prod.Lex.right _ (Nat.lt_succ_self _)

/-- What a path names, all links followed.  Names may be as long as they like: a host that bounds
them has a fault of its own where a longer one is missing here. -/
def stat (fs : FileSystem) (p : Path) : Except Fault Node :=
  if p.parts.any (·.contains '\x00') then .error .missing
  else
    match fs.reach p with
    | none => .error .linkLoop
    | some ⟨_, some fault⟩ => .error fault
    | some ⟨parts, none⟩ =>
      match fs.top.at? parts with
      | some node => .ok node
      | none => .error .missing

/-- The real path, whether there is anything or not.  Where a link was met again, double dots are
taken back as they stand, and only what cannot be looked up at all has no real path. -/
def resolve? (fs : FileSystem) (p : Path) : Option (List Text) :=
  match real fs.top [] (fs.startOf p) p.parts with
  | .ok parts => some parts
  | .error kept =>
    match fs.stat (Path.absolute (Path.collapsed kept)) with
    | .error .linkLoop => none
    | _ => some (Path.collapsed kept)

def exists? (fs : FileSystem) (p : Path) : Bool :=
  match fs.stat p with
  | .ok _ => true
  | .error _ => false

def isFile (fs : FileSystem) (p : Path) : Bool :=
  match fs.stat p with
  | .ok (.file _) => true
  | _ => false

def isDirectory (fs : FileSystem) (p : Path) : Bool :=
  match fs.stat p with
  | .ok (.directory _) => true
  | _ => false

def read (fs : FileSystem) (p : Path) : Except Fault Utf8.Bytes :=
  match fs.stat p with
  | .ok (.file (some content)) => .ok content
  | .ok (.file none) => .error .denied
  | .ok _ => .error .isDirectory
  | .error fault => .error fault

end FileSystem
end CommentedCode
