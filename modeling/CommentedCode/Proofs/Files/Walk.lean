import CommentedCode.Files.Discovery
import CommentedCode.Proofs.Files.Tree
/-!
# What a walk finds

A walk finds the entries that lie below no pruned directory and are let through themselves.
-/
namespace CommentedCode

namespace Discovery

/-- Whether a walk looks at a node at all: files, and links that do not lead to directories. -/
def Filter.looksAt (f : Filter) (parts : List Text) : Node → Bool
  | .file _ => true
  | .link _ => !f.leadsToDirectory parts
  | .directory _ => false

/-- What a filter lets through, by the path below `above`. -/
structure Filter.Passes (f : Filter) (above below : List Text) : Prop where
  accepted : ∃ name, below.getLast? = some name ∧ f.accepts name = true
  unversioned : versionControl ∉ below.dropLast
  entered : ∀ parent rest, parent ++ rest = below → parent ≠ [] → rest ≠ [] →
    f.ignores (Path.joined (above ++ parent) ++ ['/']) = false
  kept : f.ignores (Path.joined (above ++ below)) = false

theorem not_append_eq_singleton {parent rest : List Text} (hparent : parent ≠ [])
    (hrest : rest ≠ []) (name : Text) : parent ++ rest ≠ [name] := by
  intro h
  rcases List.append_eq_singleton_iff.mp h with ⟨rfl, -⟩ | ⟨-, rfl⟩
  · exact hparent rfl
  · exact hrest rfl

private theorem Filter.passes_singleton (f : Filter) (above : List Text) (name : Text) :
    f.Passes above [name] ↔ f.keepsFile above name = true := by
  rw [keepsFile, Bool.and_eq_true, Bool.not_eq_true']
  constructor
  · intro h
    obtain ⟨last, hlast, haccepts⟩ := h.accepted
    obtain rfl : name = last := Option.some.inj hlast
    exact ⟨haccepts, h.kept⟩
  · intro ⟨haccepts, hkept⟩
    exact ⟨⟨name, rfl, haccepts⟩, List.not_mem_nil, fun parent rest hsame hparent hrest =>
      absurd hsame (not_append_eq_singleton hparent hrest name), hkept⟩

private theorem Filter.passes_cons (f : Filter) (above : List Text) (name : Text)
    {parts : List Text} (hparts : parts ≠ []) :
    f.Passes above (name :: parts) ↔
      f.entersDirectory above name = true ∧ f.Passes (above ++ [name]) parts := by
  have happend (below : List Text) : above ++ name :: below = above ++ [name] ++ below := by simp
  obtain ⟨first, rest, rfl⟩ := List.exists_cons_of_ne_nil hparts
  rw [entersDirectory, Bool.and_eq_true, decide_eq_true_eq, Bool.not_eq_true']
  constructor
  · intro ⟨haccepted, hunversioned, hentered, hkept⟩
    rw [List.dropLast_cons_cons, List.mem_cons, not_or] at hunversioned
    refine ⟨⟨Ne.symm hunversioned.1, ?_⟩, haccepted, hunversioned.2, ?_, ?_⟩
    · exact hentered [name] (first :: rest) rfl (by simp) hparts
    · intro parent below hsame hparent hbelow
      rw [← happend]
      exact hentered (name :: parent) below (by rw [List.cons_append, hsame]) (by simp) hbelow
    · rw [← happend]
      exact hkept
  · intro ⟨⟨hname, hignored⟩, haccepted, hunversioned, hentered, hkept⟩
    refine ⟨haccepted, ?_, ?_, ?_⟩
    · rw [List.dropLast_cons_cons, List.mem_cons, not_or]
      exact ⟨Ne.symm hname, hunversioned⟩
    · intro parent below hsame hparent hbelow
      cases parent with
      | nil => exact absurd rfl hparent
      | cons head parent =>
        obtain ⟨rfl, htail⟩ := List.cons.inj hsame
        rw [happend]
        by_cases hhere : parent = []
        · rwa [hhere, List.append_nil]
        · exact hentered parent below htail hhere hbelow
    · rw [happend]
      exact hkept

private theorem Filter.Passes.exists_cons {f : Filter} {above below : List Text}
    (h : f.Passes above below) : ∃ name parts, below = name :: parts := by
  obtain ⟨last, hlast, -⟩ := h.accepted
  exact List.exists_cons_of_ne_nil fun hnil => nomatch hnil ▸ hlast

/-- What a walk of `l` finds, as the lookup that follows no link tells it. -/
def Filter.Finds (f : Filter) (above : List Text) (l : Listing) (parts : List Text) : Prop :=
  ∃ below node, parts = above ++ below ∧ l.at? below = some node ∧
    f.looksAt parts node = true ∧ f.Passes above below

/-- The same, behind an entry of a given name. -/
def Filter.FindsAt (f : Filter) (above : List Text) (name : Text) (node : Node)
    (parts : List Text) : Prop :=
  ∃ below last, parts = above ++ name :: below ∧ node.at? below = some last ∧
    f.looksAt parts last = true ∧ f.Passes above (name :: below)

variable (f : Filter) (above : List Text)

private theorem Filter.finds_entry (name : Text) (node : Node) {rest : Listing}
    (hname : name ∉ rest.names) (parts : List Text) :
    f.Finds above (Listing.entry name node rest) parts ↔
      f.FindsAt above name node parts ∨ f.Finds above rest parts := by
  constructor
  · rintro ⟨below, last, rfl, hat, hlooks, hpasses⟩
    obtain ⟨first, below, rfl⟩ := hpasses.exists_cons
    rw [Listing.at?_cons, Listing.find?_entry] at hat
    split at hat
    · rename_i hsame
      subst hsame
      exact .inl ⟨below, last, rfl, hat, hlooks, hpasses⟩
    · rw [← Listing.at?_cons] at hat
      exact .inr ⟨first :: below, last, rfl, hat, hlooks, hpasses⟩
  · rintro (⟨below, last, rfl, hat, hlooks, hpasses⟩ | ⟨below, last, rfl, hat, hlooks, hpasses⟩)
    · refine ⟨name :: below, last, rfl, ?_, hlooks, hpasses⟩
      rw [Listing.at?_cons, Listing.find?_entry, if_pos rfl]
      exact hat
    · obtain ⟨first, below, rfl⟩ := hpasses.exists_cons
      refine ⟨first :: below, last, rfl, ?_, hlooks, hpasses⟩
      rw [Listing.at?_cons] at hat ⊢
      rw [Listing.find?_entry, if_neg, hat]
      -- The rest has no entry of the name in front.
      rintro rfl
      rw [Listing.find?_of_notMem hname] at hat
      cases hat

private theorem Filter.findsAt_leaf (name : Text) (node : Node)
    (hnode : ∀ inside, node ≠ .directory inside) (parts : List Text) :
    f.FindsAt above name node parts ↔
      parts ∈ if f.looksAt (above ++ [name]) node && f.keepsFile above name then [above ++ [name]]
        else [] := by
  rw [List.mem_ite_nil_right, List.mem_singleton, Bool.and_eq_true, ← f.passes_singleton]
  constructor
  · rintro ⟨below, last, rfl, hat, hlooks, hpasses⟩
    have hleaf : below = [] ∧ node = last := by
      cases node with
      | directory inside => exact absurd rfl (hnode inside)
      | _ => cases below <;> simp_all [Node.at?]
    obtain ⟨rfl, rfl⟩ := hleaf
    exact ⟨⟨hlooks, hpasses⟩, rfl⟩
  · rintro ⟨⟨hlooks, hpasses⟩, rfl⟩
    refine ⟨[], node, rfl, ?_, hlooks, hpasses⟩
    cases node with
    | directory inside => exact absurd rfl (hnode inside)
    | _ => rfl

private theorem Filter.findsAt_directory (name : Text) (inside : Listing) (parts : List Text) :
    f.FindsAt above name (.directory inside) parts ↔
      f.entersDirectory above name = true ∧ f.Finds (above ++ [name]) inside parts := by
  constructor
  · rintro ⟨below, last, rfl, hat, hlooks, hpasses⟩
    have hbelow : below ≠ [] := by
      rintro rfl
      cases hat
      cases hlooks
    obtain ⟨henters, hpasses⟩ := (f.passes_cons above name hbelow).mp hpasses
    exact ⟨henters, below, last, by simp, hat, hlooks, hpasses⟩
  · rintro ⟨henters, below, last, rfl, hat, hlooks, hpasses⟩
    have hbelow : below ≠ [] := by
      obtain ⟨first, rest, rfl⟩ := hpasses.exists_cons
      exact List.cons_ne_nil first rest
    exact ⟨below, last, by simp, hat, hlooks,
      (f.passes_cons above name hbelow).mpr ⟨henters, hpasses⟩⟩

/-- A walk finds the entries that the filter lets through, and nothing else. -/
theorem mem_walk_iff {l : Listing} (htree : l.IsTree) (parts : List Text) :
    parts ∈ walk f above l ↔ f.Finds above l parts := by
  induction l using Listing.entry_induction generalizing above with
  | empty =>
    refine ⟨nofun, fun ⟨below, last, _, hat, hlooks, hpasses⟩ => ?_⟩
    obtain ⟨first, below, rfl⟩ := hpasses.exists_cons
    rw [Listing.at?_cons] at hat
    cases hat
  | entry name node rest ihInside ihRest =>
    obtain ⟨-, hfresh, hinside, hrest⟩ := Listing.isTree_entry.mp htree
    rw [f.finds_entry above name node hfresh, ← ihRest above hrest]
    cases node with
    | file content =>
      rw [f.findsAt_leaf above name (.file content) nofun]
      exact List.mem_append
    | link target =>
      rw [f.findsAt_leaf above name (.link target) nofun]
      exact List.mem_append
    | directory inside =>
      rw [f.findsAt_directory, ← ihInside inside rfl (above ++ [name]) (hinside inside rfl),
        ← List.mem_ite_nil_right]
      exact List.mem_append

end Discovery
end CommentedCode
