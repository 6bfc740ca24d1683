import CommentedCode.Files.Lookup
import Mathlib.Data.List.Basic
/-!
# Trees

In a tree a name is a single component and stands for one entry of its directory.  Whatever is put
into a tree at a path of such names leaves it a tree.  What is reached without following a link is
found at the path that its names make.
-/
namespace CommentedCode

/-- What an entry may be called. -/
def Path.isName (name : Text) : Bool :=
  name ≠ [] && name ≠ ['.'] && name ≠ ['.', '.'] && !name.contains '/' && !name.contains '\x00'

/-- The node at a path below a node, no link being followed. -/
def Node.at? : List Text → Node → Option Node
  | parts, .directory inside => inside.at? parts
  | [], node => some node
  | _ :: _, _ => none

namespace Listing

theorem entry_induction {p : Listing → Prop} (empty : p .empty)
    (entry : ∀ name node rest, (∀ inside, node = .directory inside → p inside) → p rest →
      p (entry name node rest)) (l : Listing) : p l := by
  induction l with
  | empty => exact empty
  | file name content rest ih => exact entry name (.file content) rest nofun ih
  | link name target rest ih => exact entry name (.link target) rest nofun ih
  | directory name inside rest ihInside ihRest =>
    exact entry name (.directory inside) rest (fun _ h => Node.directory.inj h ▸ ihInside) ihRest

section Entry

variable (name : Text) (node : Node) (rest : Listing)

private theorem names_entry : (entry name node rest).names = name :: rest.names := by
  cases node <;> rfl

theorem find?_entry (wanted : Text) : (entry name node rest).find? wanted =
    if name = wanted then some node else rest.find? wanted := by
  cases node <;> rfl

private theorem set_entry (wanted : Text) (other : Node) : (entry name node rest).set wanted other =
    if name = wanted then entry wanted other rest
    else entry name node (rest.set wanted other) := by
  cases node <;> rfl

end Entry

theorem find?_of_notMem {l : Listing} {name : Text} (h : name ∉ l.names) : l.find? name = none := by
  induction l using entry_induction with
  | empty => rfl
  | entry first node rest _ ih =>
    rw [names_entry, List.mem_cons, not_or] at h
    rw [find?_entry, if_neg (Ne.symm h.1), ih h.2]

theorem at?_cons (l : Listing) (name : Text) (parts : List Text) :
    l.at? (name :: parts) = (l.find? name).bind (·.at? parts) := by
  cases parts with
  | nil =>
    cases hfind : l.find? name with
    | none => simp [at?, hfind]
    | some node => cases node <;> simp [at?, hfind, Node.at?]
  | cons next parts =>
    cases hfind : l.find? name with
    | none => simp [at?, hfind]
    | some node => cases node <;> simp [at?, hfind, Node.at?]

theorem at?_append {l inside : Listing} {above : List Text}
    (h : l.at? above = some (.directory inside)) (below : List Text) :
    l.at? (above ++ below) = inside.at? below := by
  induction above generalizing l with
  | nil =>
    cases h
    rfl
  | cons name above ih =>
    rw [at?_cons] at h
    rw [List.cons_append, at?_cons]
    obtain ⟨node, hfind, hnode⟩ := Option.bind_eq_some_iff.mp h
    rw [hfind, Option.bind_some]
    cases node with
    | directory below => exact ih hnode
    | _ => cases above <;> cases hnode

theorem at?_append_singleton {l inside : Listing} {above : List Text}
    (h : l.at? above = some (.directory inside)) (name : Text) :
    l.at? (above ++ [name]) = inside.find? name :=
  at?_append h [name]

theorem exists_directory_of_at? {l : Listing} {above : List Text} {name : Text} {node : Node}
    (h : l.at? (above ++ [name]) = some node) :
    ∃ inside, l.at? above = some (.directory inside) ∧ inside.find? name = some node := by
  induction above generalizing l with
  | nil => exact ⟨l, rfl, h⟩
  | cons first above ih =>
    rw [List.cons_append, at?_cons] at h
    obtain ⟨found, hfind, hfound⟩ := Option.bind_eq_some_iff.mp h
    cases found with
    | directory below =>
      obtain ⟨inside, habove, hname⟩ := ih hfound
      exact ⟨inside, by rw [at?_cons, hfind]; exact habove, hname⟩
    | _ => cases above <;> cases hfound

/-- What every listing says of its first entry and of the rest, it says of what it finds. -/
theorem holds_of_find? {p : Listing → Prop} {q : Text → Node → Prop}
    (hp : ∀ name node rest, p (entry name node rest) → q name node ∧ p rest) {l : Listing}
    (h : p l) {name : Text} {node : Node} (hfind : l.find? name = some node) : q name node := by
  induction l using entry_induction with
  | empty => cases hfind
  | entry first other rest _ ih =>
    obtain ⟨hfirst, hrest⟩ := hp first other rest h
    rw [find?_entry] at hfind
    split at hfind
    · rename_i hsame
      cases hfind
      exact hsame ▸ hfirst
    · exact ih hrest hfind

/-- What directories inherit from the directory that they are in, they have at any depth. -/
theorem inherit_at? {p : Listing → Prop}
    (hp : ∀ l name inside, p l → l.find? name = some (.directory inside) → p inside)
    {l inside : Listing} {parts : List Text} (h : p l)
    (hat : l.at? parts = some (.directory inside)) : p inside := by
  induction parts generalizing l with
  | nil =>
    cases hat
    exact h
  | cons name parts ih =>
    rw [at?_cons] at hat
    obtain ⟨node, hfind, hnode⟩ := Option.bind_eq_some_iff.mp hat
    cases node with
    | directory below => exact ih (hp l name below h hfind) hnode
    | _ => cases parts <;> cases hnode

/-- Every name at any depth is one that an entry may have. -/
def named : Listing → Bool
  | empty => true
  | file name _ rest => Path.isName name && rest.named
  | link name _ rest => Path.isName name && rest.named
  | directory name inside rest => Path.isName name && inside.named && rest.named

/-- What the listing of a directory is. -/
structure IsTree (l : Listing) : Prop where
  named : l.named = true
  distinct : l.distinct = true

section

variable {name : Text} {node : Node} {rest : Listing}

private theorem named_entry : (entry name node rest).named = true ↔ Path.isName name = true ∧
    (∀ inside, node = .directory inside → inside.named = true) ∧ rest.named = true := by
  cases node <;> simp [entry, named, and_assoc]

private theorem distinct_entry : (entry name node rest).distinct = true ↔ name ∉ rest.names ∧
    (∀ inside, node = .directory inside → inside.distinct = true) ∧ rest.distinct = true := by
  cases node <;> simp [entry, distinct, and_assoc]

theorem isTree_entry : (entry name node rest).IsTree ↔ Path.isName name = true ∧
    name ∉ rest.names ∧ (∀ inside, node = .directory inside → inside.IsTree) ∧ rest.IsTree := by
  constructor
  · rintro ⟨hnamed, hdistinct⟩
    obtain ⟨hname, hnamedInside, hnamedRest⟩ := named_entry.mp hnamed
    obtain ⟨hfresh, hdistinctInside, hdistinctRest⟩ := distinct_entry.mp hdistinct
    exact ⟨hname, hfresh, fun inside h => ⟨hnamedInside inside h, hdistinctInside inside h⟩,
      hnamedRest, hdistinctRest⟩
  · rintro ⟨hname, hfresh, hinside, hrest⟩
    exact ⟨named_entry.mpr ⟨hname, fun inside h => (hinside inside h).named, hrest.named⟩,
      distinct_entry.mpr ⟨hfresh, fun inside h => (hinside inside h).distinct, hrest.distinct⟩⟩

end

private theorem mem_names_set {wanted other : Text} {node : Node} {l : Listing}
    (h : other ∈ (l.set wanted node).names) : other = wanted ∨ other ∈ l.names := by
  induction l using entry_induction with
  | empty =>
    rw [set, names_entry] at h
    exact .inl (List.mem_singleton.mp h)
  | entry name first rest _ ih =>
    rw [set_entry] at h
    split at h
    · rw [names_entry, List.mem_cons] at h
      rw [names_entry]
      exact h.imp id (List.mem_cons_of_mem name)
    · rw [names_entry, List.mem_cons] at h
      rw [names_entry, List.mem_cons]
      exact h.elim (fun hname => .inr (.inl hname)) fun hrest => (ih hrest).imp id .inr

namespace IsTree

theorem empty : IsTree .empty :=
  ⟨rfl, rfl⟩

private theorem of_find? {l : Listing} (h : l.IsTree) {name : Text} {node : Node}
    (hfind : l.find? name = some node) :
    Path.isName name = true ∧ ∀ inside, node = .directory inside → inside.IsTree := by
  refine holds_of_find? (p := IsTree) (q := fun name node => Path.isName name = true ∧
    ∀ inside, node = .directory inside → inside.IsTree) (fun _ _ _ hentry => ?_) h hfind
  obtain ⟨hname, -, hinside, hrest⟩ := isTree_entry.mp hentry
  exact ⟨⟨hname, hinside⟩, hrest⟩

theorem of_at? {l inside : Listing} (h : l.IsTree) {parts : List Text}
    (hat : l.at? parts = some (.directory inside)) : inside.IsTree :=
  inherit_at? (fun _ _ below hl hfind => (hl.of_find? hfind).2 below rfl) h hat

theorem isName_of_at? {l : Listing} (h : l.IsTree) {parts : List Text} {node : Node}
    (hat : l.at? parts = some node) : ∀ name ∈ parts, Path.isName name = true := by
  induction parts generalizing l with
  | nil => exact nofun
  | cons name parts ih =>
    rw [at?_cons] at hat
    obtain ⟨first, hfind, hnode⟩ := Option.bind_eq_some_iff.mp hat
    obtain ⟨hname, hbelow⟩ := h.of_find? hfind
    refine List.forall_mem_cons.mpr ⟨hname, ?_⟩
    cases first with
    | directory inside => exact ih (hbelow inside rfl) hnode
    | _ =>
      cases parts with
      | nil => exact nofun
      | cons => cases hnode

theorem set {l : Listing} (h : l.IsTree) {wanted : Text} (hwanted : Path.isName wanted = true)
    {node : Node} (hnode : ∀ inside, node = .directory inside → inside.IsTree) :
    (l.set wanted node).IsTree := by
  induction l using entry_induction with
  | empty => exact isTree_entry.mpr ⟨hwanted, List.not_mem_nil, hnode, empty⟩
  | entry name first rest _ ih =>
    obtain ⟨hname, hfresh, hinside, hrest⟩ := isTree_entry.mp h
    rw [set_entry]
    split
    · rename_i hsame
      exact isTree_entry.mpr ⟨hwanted, hsame ▸ hfresh, hnode, hrest⟩
    · rename_i hne
      refine isTree_entry.mpr ⟨hname, fun hmem => ?_, hinside, ih hrest⟩
      exact (mem_names_set hmem).elim hne hfresh

theorem put {l : Listing} (h : l.IsTree) {parts : List Text}
    (hparts : ∀ name ∈ parts, Path.isName name = true) {node : Node}
    (hnode : ∀ inside, node = .directory inside → inside.IsTree) :
    (Listing.put node parts l).IsTree := by
  induction parts generalizing l with
  | nil => exact h
  | cons name parts ih =>
    obtain ⟨hname, hrest⟩ := List.forall_mem_cons.mp hparts
    cases parts with
    | nil => exact h.set hname hnode
    | cons next parts =>
      have hinside : (insideOf (l.find? name)).IsTree := by
        cases hfind : l.find? name with
        | none => exact empty
        | some first =>
          cases first with
          | directory inside => exact (h.of_find? hfind).2 inside rfl
          | _ => exact empty
      exact h.set hname fun _ hsame => Node.directory.inj hsame ▸ ih hinside hrest

end IsTree
end Listing

namespace FileSystem

@[simp] theorem startOf_absolute (fs : FileSystem) (parts : List Text) :
    fs.startOf (Path.absolute parts) = [] :=
  rfl

private theorem follow_at? {top : Listing} (links : Nat) {reached parts : List Text}
    (fault : Option Fault) {inside : Listing} {node : Node} (htree : inside.IsTree)
    (hreached : top.at? reached = some (.directory inside)) (hat : inside.at? parts = some node)
    (hnode : ∀ target, node ≠ .link target) :
    follow top links reached fault parts = some ⟨reached ++ parts, fault⟩ := by
  induction parts generalizing reached inside with
  | nil => rw [follow, List.append_nil]
  | cons name parts ih =>
    have hdots : name ≠ ['.', '.'] := by
      have hname := htree.isName_of_at? hat name List.mem_cons_self
      rintro rfl
      cases hname
    rw [Listing.at?_cons] at hat
    obtain ⟨first, hfind, hfirst⟩ := Option.bind_eq_some_iff.mp hat
    have happend : reached ++ name :: parts = reached ++ [name] ++ parts := by simp
    rw [follow, hreached, happend]
    simp only [hdots, if_false, hfind]
    cases first with
    | directory below =>
      refine ih ((htree.of_find? hfind).2 below rfl) ?_ hfirst
      rw [Listing.at?_append hreached, Listing.at?_cons, hfind]
      rfl
    | file content =>
      cases parts with
      | nil => rw [follow, List.append_nil]
      | cons => cases hfirst
    | link target =>
      cases parts with
      | nil =>
        cases hfirst
        exact absurd rfl (hnode target)
      | cons => cases hfirst

section

variable {fs : FileSystem} (htree : fs.top.IsTree) {parts : List Text} {node : Node}
  (hat : fs.top.at? parts = some node) (hnode : ∀ target, node ≠ .link target)
include htree hat hnode

theorem reach_at? : fs.reach (Path.absolute parts) = some ⟨parts, none⟩ :=
  follow_at? linkBound none htree rfl hat hnode

theorem stat_at? : fs.stat (Path.absolute parts) = .ok node := by
  have hnul : (Path.absolute parts).parts.any (·.contains '\x00') = false := by
    refine List.any_eq_false.mpr fun name hname => ?_
    have hisName := htree.isName_of_at? hat name hname
    simp only [Path.isName, Bool.and_eq_true, Bool.not_eq_true'] at hisName
    simpa using hisName.2
  rw [stat, hnul, reach_at? htree hat hnode]
  simp only [Bool.false_eq_true, if_false, hat]

end

theorem read_at? {fs : FileSystem} (htree : fs.top.IsTree) {parts : List Text}
    {content : Utf8.Bytes} (hat : fs.top.at? parts = some (.file content)) :
    fs.read (Path.absolute parts) = .ok content := by
  rw [read, stat_at? htree hat nofun]

end FileSystem
end CommentedCode
