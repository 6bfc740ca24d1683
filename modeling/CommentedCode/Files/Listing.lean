import CommentedCode.Files.Path
import CommentedCode.Text.Utf8
/-!
# Directory listings

A directory is the list of its entries: files with their bytes, unless these may not be read,
symbolic links with their targets, and directories with listings of their own.
-/
namespace CommentedCode

inductive Listing
  | empty
  | file (name : Text) (content : Option Utf8.Bytes) (rest : Listing)
  | link (name : Text) (target : Text) (rest : Listing)
  | directory (name : Text) (inside : Listing) (rest : Listing)
deriving DecidableEq, Repr, Inhabited

inductive Node
  | file (content : Option Utf8.Bytes)
  | link (target : Text)
  | directory (inside : Listing)
deriving DecidableEq, Repr

namespace Listing

/-- The entry of a given name. -/
def find? (wanted : Text) : Listing → Option Node
  | empty => none
  | file name content rest => if name = wanted then some (.file content) else rest.find? wanted
  | link name target rest => if name = wanted then some (.link target) else rest.find? wanted
  | directory name inside rest =>
    if name = wanted then some (.directory inside) else rest.find? wanted

def names : Listing → List Text
  | empty => []
  | file name _ rest => name :: rest.names
  | link name _ rest => name :: rest.names
  | directory name _ rest => name :: rest.names

/-- Without symbolic links at any depth. -/
def linkFree : Listing → Bool
  | empty => true
  | file _ _ rest => rest.linkFree
  | link _ _ _ => false
  | directory _ inside rest => inside.linkFree && rest.linkFree

/-- Names differ within every directory. -/
def distinct : Listing → Bool
  | empty => true
  | file name _ rest => !rest.names.contains name && rest.distinct
  | link name _ rest => !rest.names.contains name && rest.distinct
  | directory name inside rest =>
    !rest.names.contains name && inside.distinct && rest.distinct

/-- The node at a path, no link being followed. -/
def at? : List Text → Listing → Option Node
  | [], l => some (.directory l)
  | name :: parts, l =>
    match parts, l.find? name with
    | [], node => node
    | _ :: _, some (.directory inside) => inside.at? parts
    | _ :: _, _ => none

/-- The paths of all links. -/
def linkPaths : Listing → List (List Text)
  | empty => []
  | file _ _ rest => rest.linkPaths
  | link name _ rest => [name] :: rest.linkPaths
  | directory name inside rest => inside.linkPaths.map (name :: ·) ++ rest.linkPaths

end Listing

/-- The paths of the links in a node, as seen from it. -/
def Node.linkPaths : Node → List (List Text)
  | file _ => []
  | link _ => [[]]
  | directory inside => inside.linkPaths

namespace Listing

private theorem mem_linkPaths_of_find? {l : Listing} {name : Text} {node : Node}
    (h : l.find? name = some node) {parts : List Text} (hparts : parts ∈ node.linkPaths) :
    name :: parts ∈ l.linkPaths := by
  induction l with
  | empty => cases h
  | file other content rest ih =>
    rw [find?] at h
    split at h
    · obtain rfl := Option.some.inj h
      cases hparts
    · exact ih h
  | link other target rest ih =>
    rw [find?] at h
    split at h
    · rename_i hname
      obtain rfl := Option.some.inj h
      obtain rfl := List.mem_singleton.mp hparts
      exact hname ▸ List.mem_cons_self
    · exact List.mem_cons_of_mem _ (ih h)
  | directory other inside rest _ ih =>
    rw [find?] at h
    split at h
    · rename_i hname
      obtain rfl := Option.some.inj h
      exact List.mem_append_left _ (List.mem_map.mpr ⟨parts, hparts, hname ▸ rfl⟩)
    · exact List.mem_append_right _ (ih h)

theorem mem_linkPaths {l : Listing} {parts : List Text} {target : Text}
    (h : l.at? parts = some (.link target)) : parts ∈ l.linkPaths := by
  induction parts generalizing l with
  | nil => cases h
  | cons name parts ih =>
    cases parts with
    | nil => exact mem_linkPaths_of_find? h List.mem_cons_self
    | cons next parts =>
      cases hfind : l.find? name with
      | none => simp [at?, hfind] at h
      | some node =>
        cases node with
        | directory inside =>
          have hinside : inside.at? (next :: parts) = some (.link target) := by
            simpa [at?, hfind] using h
          exact mem_linkPaths_of_find? hfind (ih hinside)
        | _ => simp [at?, hfind] at h

def entry (name : Text) (node : Node) (rest : Listing) : Listing :=
  match node with
  | .file content => file name content rest
  | .link target => link name target rest
  | .directory inside => directory name inside rest

/-- Sets the entry of a given name, which keeps its place or comes last. -/
def set (wanted : Text) (node : Node) : Listing → Listing
  | empty => entry wanted node empty
  | file name content rest =>
    if name = wanted then entry wanted node rest else file name content (rest.set wanted node)
  | link name target rest =>
    if name = wanted then entry wanted node rest else link name target (rest.set wanted node)
  | directory name inside rest =>
    if name = wanted then entry wanted node rest
    else directory name inside (rest.set wanted node)

def insideOf : Option Node → Listing
  | some (.directory inside) => inside
  | _ => empty

/-- Puts a node at a path and makes the directories on the way. -/
def put (node : Node) : List Text → Listing → Listing
  | [], l => l
  | [name], l => l.set name node
  | name :: parts, l => l.set name (.directory (put node parts (insideOf (l.find? name))))

/-- Makes a directory at a path unless it is there. -/
def putDirectory : List Text → Listing → Listing
  | [], l => l
  | name :: parts, l =>
    l.set name (.directory (putDirectory parts (insideOf (l.find? name))))

end Listing
end CommentedCode
