import CommentedCode.Proofs.Files.Links
import CommentedCode.Proofs.Ignore.Reading
/-!
# Paths as text

A path of plain components is what its text is read as.  Wherever links lead, components stay plain.
-/
namespace CommentedCode

namespace Text

private theorem splitOn_of_not_mem {sep : Char} {part : Text} (h : sep ∉ part) :
    splitOn sep part = [part] := by
  induction part with
  | nil => rfl
  | cons c part ih =>
    rw [List.mem_cons, not_or] at h
    rw [splitOn, if_neg (Ne.symm h.1), ih h.2]

private theorem splitOn_append {sep : Char} {part : Text} (h : sep ∉ part) (rest : Text) :
    splitOn sep (part ++ sep :: rest) = part :: splitOn sep rest := by
  induction part with
  | nil => rw [List.nil_append, splitOn, if_pos rfl]
  | cons c part ih =>
    rw [List.mem_cons, not_or] at h
    rw [List.cons_append, splitOn, if_neg (Ne.symm h.1), ih h.2]

private theorem splitOn_join {sep : Char} {parts : List Text} (hne : parts ≠ [])
    (h : ∀ part ∈ parts, sep ∉ part) : splitOn sep (join [sep] parts) = parts := by
  induction parts with
  | nil => exact absurd rfl hne
  | cons part parts ih =>
    obtain ⟨hpart, hparts⟩ := List.forall_mem_cons.mp h
    cases parts with
    | nil =>
      rw [join_singleton]
      exact splitOn_of_not_mem hpart
    | cons next parts =>
      rw [join_cons _ _ (List.cons_ne_nil next parts), List.singleton_append, splitOn_append hpart,
        ih (List.cons_ne_nil _ _) hparts]

end Text

namespace Path

/-- What a component can be. -/
structure IsComponent (name : Text) : Prop where
  ne_nil : name ≠ []
  ne_dot : name ≠ ['.']
  unbroken : '/' ∉ name

theorem isComponent_of_isName {name : Text} (h : isName name = true) : IsComponent name := by
  simp only [isName, Bool.and_eq_true, decide_eq_true_eq, Bool.not_eq_true'] at h
  exact ⟨h.1.1.1.1, h.1.1.1.2, by simpa using h.1.2⟩

private theorem isComponent_of_mem_components {cs name : Text} (h : name ∈ components cs) :
    IsComponent name := by
  obtain ⟨hmem, hkept⟩ := List.mem_filter.mp h
  simp only [Bool.and_eq_true, decide_eq_true_eq] at hkept
  exact ⟨hkept.1, hkept.2, Ignore.not_mem_of_mem_splitOn '/' cs name hmem⟩

private theorem components_slash (cs : Text) : components ('/' :: cs) = components cs := by
  simp [components, Text.splitOn]

section

variable {parts : List Text} (h : ∀ name ∈ parts, IsComponent name)
include h

private theorem components_joined : components (joined parts) = parts := by
  cases parts with
  | nil => rfl
  | cons name rest =>
    rw [components, joined,
      Text.splitOn_join (List.cons_ne_nil name rest) fun part hpart => (h part hpart).unbroken]
    refine List.filter_eq_self.mpr fun part hpart => ?_
    simp [(h part hpart).ne_nil, (h part hpart).ne_dot]

private theorem joined_eq_cons : parts = [] ∨ ∃ c rest, joined parts = c :: rest ∧ c ≠ '/' := by
  cases parts with
  | nil => exact .inl rfl
  | cons name rest =>
    have hname := h name List.mem_cons_self
    cases name with
    | nil => exact absurd rfl hname.ne_nil
    | cons c name =>
      have hslash : c ≠ '/' := fun hc => hname.unbroken (hc ▸ List.mem_cons_self)
      refine .inr ?_
      cases rest with
      | nil => exact ⟨c, name, by simp [joined, Text.join], hslash⟩
      | cons next rest => exact ⟨c, _, by simp [joined, Text.join]; rfl, hslash⟩

theorem ofText_relative : ofText (text ⟨[], parts⟩) = ⟨[], parts⟩ := by
  rcases joined_eq_cons h with rfl | ⟨c, rest, hjoined, hslash⟩
  · rfl
  · have hparts : parts ≠ [] := by
      rintro rfl
      cases hjoined
    rw [text, if_neg (by simp [hparts]), List.nil_append, ofText, components_joined h, hjoined]
    congr 1
    cases rest <;> simp [anchorOf, hslash]

theorem ofText_absolute : ofText (text (absolute parts)) = absolute parts := by
  have htext : text (absolute parts) = '/' :: joined parts := by simp [text, absolute]
  rw [htext, ofText, components_slash, components_joined h]
  rcases joined_eq_cons h with rfl | ⟨c, rest, hjoined, hslash⟩
  · rfl
  · rw [hjoined]
    simp [anchorOf, hslash, absolute]

end

theorem partsAfter?_eq_some_iff {base parts rest : List Text} :
    partsAfter? base parts = some rest ↔ parts = base ++ rest := by
  induction base generalizing parts with
  | nil => simp [partsAfter?]
  | cons b base ih =>
    cases parts with
    | nil => simp [partsAfter?]
    | cons p parts =>
      by_cases hsame : b = p
      · simp [partsAfter?, hsame, ih]
      · simp [partsAfter?, hsame, Ne.symm hsame]

end Path

namespace FileSystem.Leads

theorem isComponent {top : Listing} {n : Nat} {reached parts there : List Text}
    (h : Leads top n reached parts there) (hreached : ∀ name ∈ reached, Path.IsComponent name)
    (hparts : ∀ name ∈ parts, Path.IsComponent name) :
    ∀ name ∈ there, Path.IsComponent name := by
  induction h with
  | done => exact hreached
  | up _ ih =>
    exact ih (fun name hname => hreached name (List.dropLast_subset _ hname))
      (List.forall_mem_cons.mp hparts).2
  | on _ _ _ ih =>
    obtain ⟨hname, hrest⟩ := List.forall_mem_cons.mp hparts
    exact ih (List.forall_mem_append.mpr ⟨hreached, List.forall_mem_singleton.mpr hname⟩) hrest
  | link _ _ _ _ ihTarget ihRest =>
    refine ihRest (ihTarget ?_ ?_) (List.forall_mem_cons.mp hparts).2
    · split
      · exact nofun
      · exact hreached
    · exact fun name => Path.isComponent_of_mem_components

end FileSystem.Leads
end CommentedCode
