import CommentedCode.Evidence.Measure
import CommentedCode.Proofs.Text.Occurrence
import Mathlib.Algebra.Group.Embedding
import Mathlib.Algebra.Order.Group.Nat
import Mathlib.Data.Finset.Card
import Mathlib.Order.CompletePartialOrder
import Mathlib.Order.Interval.Set.Disjoint
/-!
# The most occurrences

What is counted of a token is the size of the largest set of places at which it stands without
sharing a character with itself.  Where a text is cut in two, at most one occurrence is lost.
-/
namespace CommentedCode.Text

open scoped Naturals

/-- Places at which a token stands, of which no two share a character. -/
structure IsSelection (token cs : Text) (places : Finset Nat) : Prop where
  stands : ∀ i ∈ places, token <+: cs.drop i
  disjoint : (places : Set Nat).PairwiseDisjoint fun i => Set.Ico i (i + token.length)

/-- The sizes of all selections. -/
def selectionSizes (token cs : Text) : Set Nat :=
  {n | ∃ places, IsSelection token cs places ∧ places.card = n}

section Selection

variable {token : Text} (ht : token ≠ [])
include ht

private theorem isSelection_iff {cs : Text} {places : Finset Nat} : IsSelection token cs places ↔
    (∀ i ∈ places, token <+: cs.drop i) ∧
      ∀ i ∈ places, ∀ j ∈ places, i < j → i + token.length ≤ j := by
  have hpos := List.length_pos_iff.mpr ht
  constructor
  · intro h
    refine ⟨h.stands, ?_⟩
    intro i hi j hj hij
    have hdisjoint : Disjoint (Set.Ico i (i + token.length)) (Set.Ico j (j + token.length)) :=
      h.disjoint hi hj (Nat.ne_of_lt hij)
    rw [Set.Ico_disjoint_Ico] at hdisjoint
    omega
  · intro ⟨hstands, hapart⟩
    refine ⟨hstands, ?_⟩
    intro i hi j hj hne
    show Disjoint (Set.Ico i (i + token.length)) (Set.Ico j (j + token.length))
    rw [Set.Ico_disjoint_Ico]
    rcases Nat.lt_or_gt_of_ne hne with hij | hji
    · have hle := hapart i hi j hj hij
      omega
    · have hle := hapart j hj i hi hji
      omega

private theorem isSelection_map_iff {cs : Text} {places : Finset Nat} (front : Text) :
    IsSelection token (front ++ cs) (places.map (addLeftEmbedding front.length)) ↔
      IsSelection token cs places := by
  rw [isSelection_iff ht, isSelection_iff ht]
  simp only [Finset.forall_mem_map, addLeftEmbedding_apply, List.drop_length_add_append,
    Nat.add_lt_add_iff_left, Nat.add_assoc, Nat.add_le_add_iff_left]

omit ht in
private theorem exists_map_eq {places : Finset Nat} {k : Nat} (h : ∀ i ∈ places, k ≤ i) :
    ∃ nearer : Finset Nat, places = nearer.map (addLeftEmbedding k) := by
  refine ⟨places.image (· - k), ?_⟩
  ext i
  simp only [Finset.mem_map, Finset.mem_image, addLeftEmbedding_apply]
  constructor
  · intro hi
    exact ⟨i - k, ⟨i, hi, rfl⟩, Nat.add_sub_cancel' (h i hi)⟩
  · rintro ⟨_, ⟨j, hj, rfl⟩, rfl⟩
    rwa [Nat.add_sub_cancel' (h j hj)]

omit ht in
theorem IsSelection.subset {cs : Text} {places fewer : Finset Nat}
    (h : IsSelection token cs places) (hsub : fewer ⊆ places) : IsSelection token cs fewer :=
  ⟨fun i hi => h.stands i (hsub hi), h.disjoint.subset (Finset.coe_subset.mpr hsub)⟩

/-- A selection is a choice without overlaps, which takes the start of the text if this is one of
the places and goes on behind it. -/
theorem IsSelection.occurs {cs : Text} {places : Finset Nat} (h : IsSelection token cs places) :
    Occurs token places.card cs := by
  have hpos := List.length_pos_iff.mpr ht
  generalize hlen : cs.length = len
  induction len using Nat.strongRecOn generalizing cs places with
  | ind len ih =>
    by_cases hzero : 0 ∈ places
    · obtain ⟨rest, hrest⟩ := h.stands 0 hzero
      rw [List.drop_zero] at hrest
      subst hrest
      have hfar : ∀ i ∈ places.erase 0, token.length ≤ i := by
        intro i hi
        obtain ⟨hne, hmem⟩ := Finset.mem_erase.mp hi
        have hapart := ((isSelection_iff ht).mp h).2 0 hzero i hmem (Nat.pos_of_ne_zero hne)
        rwa [Nat.zero_add] at hapart
      obtain ⟨later, hlater⟩ := exists_map_eq hfar
      have hselection := h.subset (Finset.erase_subset 0 places)
      rw [hlater, isSelection_map_iff ht] at hselection
      have hshort : rest.length < len := by
        rw [← hlen, List.length_append]
        omega
      rw [← Finset.card_erase_add_one hzero, hlater, Finset.card_map]
      exact (ih _ hshort hselection rfl).take
    · cases cs with
      | nil =>
        have hnone : places = ∅ := by
          rw [Finset.eq_empty_iff_forall_notMem]
          intro i hi
          have hprefix := h.stands i hi
          rw [List.drop_nil] at hprefix
          exact ht (List.prefix_nil.mp hprefix)
        rw [hnone, Finset.card_empty]
        exact .none []
      | cons c cs =>
        have hfar : ∀ i ∈ places, [c].length ≤ i := by
          intro i hi
          exact Nat.pos_of_ne_zero fun heq => hzero (heq ▸ hi)
        obtain ⟨later, rfl⟩ := exists_map_eq hfar
        have hselection : IsSelection token cs later := (isSelection_map_iff ht [c]).mp h
        rw [Finset.card_map]
        exact (ih _ (hlen ▸ Nat.lt_succ_self _) hselection rfl).skip c

private theorem Occurs.exists_selection {n : Nat} {cs : Text} (h : Occurs token n cs) :
    ∃ places, IsSelection token cs places ∧ places.card = n := by
  have hpos := List.length_pos_iff.mpr ht
  induction h with
  | none cs =>
    refine ⟨∅, ⟨?_, ?_⟩, Finset.card_empty⟩
    · intro i hi
      exact absurd hi (Finset.notMem_empty i)
    · rw [Finset.coe_empty]
      exact Set.pairwiseDisjoint_empty
  | @skip c n cs _ ih =>
    obtain ⟨places, hplaces, hcard⟩ := ih
    refine ⟨places.map (addLeftEmbedding [c].length), ?_, by rw [Finset.card_map, hcard]⟩
    exact (isSelection_map_iff ht [c]).mpr hplaces
  | @take n cs _ ih =>
    obtain ⟨places, hplaces, hcard⟩ := ih
    have hbehind := (isSelection_map_iff ht token).mpr hplaces
    have hfar : ∀ i ∈ places.map (addLeftEmbedding token.length), token.length ≤ i := by
      intro i hi
      obtain ⟨j, -, rfl⟩ := Finset.mem_map.mp hi
      exact Nat.le_add_right _ _
    have hzero : 0 ∉ places.map (addLeftEmbedding token.length) := by
      intro hmem
      have hle := hfar 0 hmem
      omega
    refine ⟨insert 0 (places.map (addLeftEmbedding token.length)), ?_, ?_⟩
    · rw [isSelection_iff ht] at hbehind ⊢
      obtain ⟨hstands, hapart⟩ := hbehind
      refine ⟨(Finset.forall_mem_insert _ _ _).mpr ⟨List.prefix_append token cs, hstands⟩, ?_⟩
      intro i hi j hj hij
      have hj : j ∈ places.map (addLeftEmbedding token.length) :=
        (Finset.mem_insert.mp hj).resolve_left (by omega)
      rcases Finset.mem_insert.mp hi with rfl | hi
      · rw [Nat.zero_add]
        exact hfar j hj
      · exact hapart i hi j hj hij
    · rw [Finset.card_insert_of_notMem hzero, Finset.card_map, hcard]

private theorem isGreatest_count (cs : Text) :
    IsGreatest (selectionSizes token cs) (count cs token) := by
  rw [count, if_neg ht]
  constructor
  · exact (occurs_countFrom ht cs).exists_selection ht
  · rintro _ ⟨places, hplaces, rfl⟩
    exact (hplaces.occurs ht).le_countFrom ht

end Selection

/-! ### A text cut in two -/

private theorem Occurs.of_append {token as bs : Text} {n : Nat} (h : Occurs token n (as ++ bs)) :
    ∃ k m, Occurs token k as ∧ Occurs token m bs ∧ n ≤ k + m + 1 := by
  generalize hall : as ++ bs = cs at h
  induction h generalizing as with
  | none cs => exact ⟨0, 0, .none as, .none bs, Nat.zero_le _⟩
  | @skip c n cs h ih =>
    cases as with
    | nil =>
      rw [List.nil_append] at hall
      exact ⟨0, n, .none [], hall ▸ h.skip c, by omega⟩
    | cons a as =>
      obtain ⟨rfl, hrest⟩ := List.cons.inj hall
      obtain ⟨k, m, hk, hm, hle⟩ := ih hrest
      exact ⟨k, m, hk.skip a, hm, hle⟩
  | @take n cs h ih =>
    rcases List.append_eq_append_iff.mp hall with ⟨more, rfl, rfl⟩ | ⟨more, rfl, rfl⟩
    · exact ⟨0, n, .none as, h.behind more, by omega⟩
    · obtain ⟨k, m, hk, hm, hle⟩ := ih rfl
      exact ⟨k + 1, m, hk.take, hm, by omega⟩

private theorem count_append_le_succ {token : Text} (ht : token ≠ []) (as bs : Text) :
    count (as ++ bs) token ≤ count as token + count bs token + 1 := by
  simp only [count, if_neg ht]
  obtain ⟨k, m, hk, hm, hle⟩ := (occurs_countFrom ht (as ++ bs)).of_append
  have hkle := hk.le_countFrom ht
  have hmle := hm.le_countFrom ht
  omega

/-- Tokens are counted for themselves, each as often as it can be chosen without overlaps.  Where a
line is cut, a token loses one occurrence or none. -/
theorem countAll_largest {tokens : List Text} (ht : ∀ token ∈ tokens, token ≠ []) (line : Text) :
    (∃ sizes, List.Forall₂ (fun token size => IsGreatest (selectionSizes token line) size)
        tokens sizes ∧ countAll line tokens = sizes.sum) ∧
    ∀ token ∈ tokens, ∀ as bs, count as token + count bs token ≤ count (as ++ bs) token ∧
      count (as ++ bs) token ≤ count as token + count bs token + 1 := by
  constructor
  · refine ⟨tokens.map (count line), ?_, rfl⟩
    rw [List.forall₂_map_right_iff, List.forall₂_same]
    intro token htoken
    exact isGreatest_count (ht token htoken) line
  · intro token htoken as bs
    exact ⟨count_append_le (ht token htoken) as bs, count_append_le_succ (ht token htoken) as bs⟩

/-- An increment stands at three places of the line, and two of them can be chosen; neither part of
the line has both. -/
theorem countAll_largest_increments :
    let tokens := Measure.controlFlowIdioms
    let line := "i++++j".toList
    (∀ token ∈ tokens, token ≠ []) ∧
      (∃ sizes, List.Forall₂ (fun token size => IsGreatest (selectionSizes token line) size)
        tokens sizes ∧ sizes.sum = 2) ∧
      count ("i+".toList ++ "+++j".toList) "++".toList ≤
        count "i+".toList "++".toList + count "+++j".toList "++".toList + 1 := by
  intro tokens line
  have htokens : ∀ token ∈ tokens, token ≠ [] := by decide
  obtain ⟨⟨sizes, hsizes, hsum⟩, hcut⟩ := countAll_largest htokens line
  refine ⟨htokens, ⟨sizes, hsizes, hsum.symm⟩, ?_⟩
  exact (hcut "++".toList (by decide) "i+".toList "+++j".toList).2

end CommentedCode.Text
