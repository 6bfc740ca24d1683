import CommentedCode.Proofs.Comment.Extraction
/-!
# Comments by their lines

The line on which a comment starts is found by counting the line feeds of the segments before it.
So the comments of segments that are put together are those of the parts, the later ones further
down.
-/
namespace CommentedCode

/-- The comment that a segment on a given line is, if it is one. -/
def Comment.onLine? (line : Int) (s : Segment) : Option Comment :=
  s.commentText?.map fun text => ⟨text, line, line + List.count '\n' text⟩

/-- The comments among segments, the first of which starts on a given line. -/
def Comment.numbered : Int → List Segment → List Comment
  | _, [] => []
  | line, s :: rest =>
    (onLine? line s).toList ++ numbered (line + List.count '\n' s.text) rest

/-- A comment `k` lines further down. -/
def Comment.shift (k : Int) (c : Comment) : Comment :=
  ⟨c.text, c.startLine + k, c.endLine + k⟩

namespace Comment

private theorem map_ofSlice (before : Text) (segs : List Segment) :
    ((Segment.comments before.length segs).map fun p =>
      ofSlice (before ++ segs.flatMap Segment.text) p.1 p.2) =
      numbered (1 + List.count '\n' before) segs := by
  induction segs generalizing before with
  | nil => rfl
  | cons s segs ih =>
    have hrest := ih (before ++ s.text)
    have hline : (1 : Int) + List.count '\n' (before ++ s.text) =
        1 + List.count '\n' before + List.count '\n' s.text := by
      rw [List.count_append]
      omega
    rw [List.length_append, List.append_assoc, hline] at hrest
    cases s with
    | comment text =>
      change ofSlice _ _ _ :: List.map _ _ = _ :: numbered _ _
      rw [← hrest, ofSlice, List.take_left]
      rfl
    | literal text => exact hrest
    | other c => exact hrest

theorem ofSource_eq_numbered (source : Text) :
    ofSource source = numbered 1 (Segment.all source) := by
  have h := map_ofSlice [] (Segment.all source)
  rwa [List.nil_append, Segment.flatMap_text_all, List.length_nil, ← ofSource_eq] at h

theorem numbered_append (line : Int) (front back : List Segment) :
    numbered line (front ++ back) = numbered line front ++
      numbered (line + List.count '\n' (front.flatMap Segment.text)) back := by
  induction front generalizing line with
  | nil =>
    rw [List.flatMap_nil, List.count_nil, Int.natCast_zero, Int.add_zero]
    rfl
  | cons s front ih =>
    have hline : line + List.count '\n' ((s :: front).flatMap Segment.text) =
        line + List.count '\n' s.text + List.count '\n' (front.flatMap Segment.text) := by
      rw [List.flatMap_cons, List.count_append]
      omega
    rw [hline, List.cons_append, numbered, numbered, ih, List.append_assoc]

theorem numbered_add (line k : Int) (segs : List Segment) :
    numbered (line + k) segs = (numbered line segs).map (shift k) := by
  induction segs generalizing line with
  | nil => rfl
  | cons s segs ih =>
    have hhead : (onLine? (line + k) s).toList = (onLine? line s).toList.map (shift k) := by
      cases s with
      | comment text =>
        change [Comment.mk _ _ _] = [shift k _]
        rw [shift, Int.add_right_comm]
      | _ => rfl
    rw [numbered, numbered, List.map_append, hhead, Int.add_right_comm, ih]

end Comment
end CommentedCode
