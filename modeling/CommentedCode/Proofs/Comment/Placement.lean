import CommentedCode.Comment.Capture
import CommentedCode.Proofs.Comment.Segmentation
import CommentedCode.Proofs.Text.Encoding
/-!
# Where comments stand

The comments among segments with their offsets.  Captures of the comments are cut out as the
slices of the source, on the lines that the line feeds before them and in them make.
-/
namespace CommentedCode

namespace Position

theorem advance_append (p : Position) (as bs : Text) :
    p.advance (as ++ bs) = (p.advance as).advance bs :=
  List.foldl_append

theorem advance_row (p : Position) (cs : Text) :
    (p.advance cs).row = p.row + List.count '\n' cs := by
  induction cs generalizing p with
  | nil => rfl
  | cons c cs ih =>
    change ((p.next c).advance cs).row = _
    rw [ih, next, List.count_cons]
    by_cases hc : c = '\n'
    · simp only [hc, if_pos, beq_self_eq_true]
      omega
    · simp [hc]

theorem advance_byte (p : Position) (cs : Text) :
    (p.advance cs).byte = p.byte + (Utf8.encode cs).length := by
  induction cs generalizing p with
  | nil => rfl
  | cons c cs ih =>
    have hnext : (p.next c).byte = p.byte + c.utf8Size := by
      rw [next]
      split
      · rename_i hc
        rw [hc]
        rfl
      · rfl
    change ((p.next c).advance cs).byte = _
    rw [ih, hnext, Utf8.encode_cons, List.length_append, String.length_utf8EncodeChar]
    omega

theorem advance_take_lt (p : Position) {source : Text} {n m : Nat} (h : n < m)
    (hm : m ≤ source.length) :
    (p.advance (source.take n)).byte < (p.advance (source.take m)).byte := by
  have hsplit : source.take m = source.take n ++ (source.drop n).take (m - n) := by
    rw [← List.take_add, Nat.add_sub_cancel' h.le]
  have hgap := Utf8.length_le_encode ((source.drop n).take (m - n))
  rw [List.length_take, List.length_drop] at hgap
  rw [hsplit, advance_append, advance_byte _ ((source.drop n).take (m - n))]
  omega

end Position

namespace Segment

/-- Segments with their offsets, the first of which stands at `n`. -/
def placed : Nat → List Segment → List (Nat × Segment)
  | _, [] => []
  | n, s :: rest => (n, s) :: placed (n + s.text.length) rest

def commentText? : Segment → Option Text
  | comment text => some text
  | _ => none

/-- The texts of the comments with their offsets. -/
def comments (n : Nat) (segs : List Segment) : List (Nat × Text) :=
  (placed n segs).filterMap fun p => p.2.commentText?.map (p.1, ·)

theorem mem_placed {k n : Nat} {s : Segment} {segs : List Segment} :
    (n, s) ∈ placed k segs ↔
      ∃ front back, segs = front ++ s :: back ∧ n = k + (front.flatMap text).length := by
  induction segs generalizing k with
  | nil => simp [placed]
  | cons t segs ih =>
    rw [placed, List.mem_cons, ih]
    constructor
    · rintro (h | ⟨front, back, rfl, rfl⟩)
      · obtain ⟨rfl, rfl⟩ := Prod.mk.inj h
        exact ⟨[], segs, rfl, rfl⟩
      · refine ⟨t :: front, back, rfl, ?_⟩
        rw [List.flatMap_cons, List.length_append, Nat.add_assoc]
    · rintro ⟨front, back, heq, rfl⟩
      cases front with
      | nil =>
        obtain ⟨rfl, rfl⟩ := List.cons.inj heq
        exact Or.inl rfl
      | cons u front =>
        obtain ⟨rfl, rfl⟩ := List.cons.inj heq
        refine Or.inr ⟨front, back, rfl, ?_⟩
        rw [List.flatMap_cons, List.length_append, Nat.add_assoc]

private theorem placed_pairwise (k : Nat) (segs : List Segment) :
    (placed k segs).Pairwise fun p q => p.1 + p.2.text.length ≤ q.1 := by
  induction segs generalizing k with
  | nil => exact .nil
  | cons s segs ih =>
    refine .cons ?_ (ih _)
    intro ⟨n, t⟩ hmem
    obtain ⟨front, back, -, rfl⟩ := mem_placed.mp hmem
    exact Nat.le_add_right _ _

theorem exists_placed {k n : Nat} {segs : List Segment} (hk : k ≤ n)
    (hn : n < k + (segs.flatMap text).length) :
    ∃ p ∈ placed k segs, p.1 ≤ n ∧ n < p.1 + p.2.text.length := by
  induction segs generalizing k with
  | nil => simp at hn; omega
  | cons s segs ih =>
    by_cases hs : n < k + s.text.length
    · exact ⟨(k, s), List.mem_cons_self, hk, hs⟩
    · rw [List.flatMap_cons, List.length_append] at hn
      obtain ⟨p, hp, hbounds⟩ := ih (by omega) (by omega : n < k + s.text.length + _)
      exact ⟨p, List.mem_cons_of_mem _ hp, hbounds⟩

private theorem commentText?_eq_some {s : Segment} {text : Text} :
    s.commentText? = some text ↔ s = comment text := by
  cases s <;> simp [commentText?]

theorem mem_comments {k n : Nat} {text : Text} {segs : List Segment} :
    (n, text) ∈ comments k segs ↔ (n, .comment text) ∈ placed k segs := by
  rw [comments, List.mem_filterMap]
  constructor
  · intro ⟨⟨m, s⟩, hmem, heq⟩
    obtain ⟨t, ht, hpair⟩ := Option.map_eq_some_iff.mp heq
    obtain ⟨rfl, rfl⟩ := Prod.mk.inj hpair
    rwa [← commentText?_eq_some.mp ht]
  · intro hmem
    exact ⟨_, hmem, rfl⟩

theorem comments_pairwise (k : Nat) (segs : List Segment) :
    (comments k segs).Pairwise fun p q => p.1 + p.2.length ≤ q.1 := by
  rw [comments, List.pairwise_filterMap]
  refine (placed_pairwise k segs).imp ?_
  intro ⟨n, s⟩ ⟨m, t⟩ hle p hp q hq
  obtain ⟨a, ha, rfl⟩ := Option.map_eq_some_iff.mp hp
  obtain ⟨b, hb, rfl⟩ := Option.map_eq_some_iff.mp hq
  rw [commentText?_eq_some.mp ha] at hle
  exact hle

theorem flatMap_text_all (source : Text) : (all source).flatMap Segment.text = source := by
  fun_induction all source with
  | case1 => rfl
  | case2 c cs ih => rw [List.flatMap_cons, ih, next_append]

theorem mem_comments_all {source text : Text} {n : Nat} (h : (n, text) ∈ comments 0 (all source)) :
    ∃ before behind rest, source = before ++ (text ++ behind) ∧ before.length = n ∧
      Begins (.comment text) rest := by
  obtain ⟨front, back, hsegs, rfl⟩ := mem_placed.mp (mem_comments.mp h)
  have hmem : .comment text ∈ all source := by
    rw [hsegs]
    exact List.mem_append_right _ List.mem_cons_self
  obtain ⟨rest, hbegins⟩ := begins_of_mem hmem
  refine ⟨front.flatMap Segment.text, back.flatMap Segment.text, rest, ?_,
    (Nat.zero_add _).symm, hbegins⟩
  have hsource := flatMap_text_all source
  rw [hsegs, List.flatMap_append, List.flatMap_cons] at hsource
  exact hsource.symm

end Segment

namespace Capture

/-- The capture of a part of a source. -/
def slice (source : Text) (n length : Nat) : Capture :=
  ⟨.advance .start (source.take n), .advance .start (source.take (n + length))⟩

theorem slice_append (before text behind : Text) :
    slice (before ++ (text ++ behind)) before.length text.length =
      ⟨.advance .start before, .advance (.advance .start before) text⟩ := by
  rw [slice, List.take_left, List.take_length_add_append, List.take_left, Position.advance_append]

private theorem ofSegments_eq (before : Text) (segs : List Segment) :
    ofSegments (.advance .start before) segs =
      (Segment.comments before.length segs).map fun p =>
        slice (before ++ segs.flatMap Segment.text) p.1 p.2.length := by
  induction segs generalizing before with
  | nil => rfl
  | cons s segs ih =>
    have hrest := ih (before ++ s.text)
    rw [Position.advance_append, List.length_append, List.append_assoc] at hrest
    cases s with
    | comment text =>
      change ⟨_, _⟩ :: ofSegments _ segs = _ :: List.map _ _
      rw [hrest]
      congr 1
      exact (slice_append _ _ _).symm
    | literal text => exact hrest
    | other c => exact hrest

theorem scan_eq (source : Text) :
    scan source = (Segment.comments 0 (Segment.all source)).map fun p =>
      slice source p.1 p.2.length := by
  have h := ofSegments_eq [] (Segment.all source)
  rwa [List.nil_append, Segment.flatMap_text_all] at h

end Capture
end CommentedCode
