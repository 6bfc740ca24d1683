import CommentedCode.Proofs.Comment.Numbering
/-!
# Sources put together

Behind a source in which everything is closed, a line feed starts afresh: no segment reaches over
it.  So the comments of two sources with a line feed between them are those of the one and those
of the other, which stand further down.
-/
namespace CommentedCode

private theorem prefix_before {sep : Char} {lead rest : Text} (cs : Text) (hn : sep ∉ lead)
    (h : lead <+: cs ++ sep :: rest) : lead <+: cs := by
  rcases List.prefix_or_prefix_of_prefix h (List.prefix_append cs (sep :: rest)) with
    hlead | ⟨tail, rfl⟩
  · exact hlead
  · rw [List.prefix_append_right_inj] at h
    cases tail with
    | nil => simp
    | cons c tail =>
      obtain ⟨rfl, -⟩ := List.cons_prefix_cons.mp h
      simp at hn

/-- A segment stays the first one if a line feed and more come behind the source. -/
theorem Begins.append {s : Segment} {rest : Text} (h : Begins s rest) (more : Text) :
    Begins s (rest ++ '\n' :: more) := by
  cases h with
  | block hbody => exact .block hbody
  | @string body _ hbody hquotes =>
    refine .string hbody ?_
    rw [← List.append_assoc]
    exact fun h => hquotes (prefix_before _ (by decide) h)
  | char hbody => exact .char hbody
  | lineComment hbody hrest =>
    refine .lineComment hbody ?_
    cases rest with
    | nil => simp
    | cons c rest => exact hrest
  | blockComment hfirst => exact .blockComment hfirst
  | @other c _ hd hq hopen =>
    refine .other hd hq ?_
    rintro (h | h)
    · exact hopen (.inl (prefix_before (c :: rest) (by decide) h))
    · exact hopen (.inr (prefix_before (c :: rest) (by decide) h))

theorem Cut.append_line {segs : List Segment} {source rest : Text} (h : Cut segs source rest)
    (more : Text) : Cut segs (source ++ '\n' :: more) (rest ++ '\n' :: more) := by
  induction h with
  | nil => exact .nil
  | cons hs _ ih =>
    rw [List.append_assoc]
    exact .cons (hs.append more) ih

namespace Segmented

/-- The segments of two sources and of the line feed between them. -/
theorem append_line {front back : List Segment} {source more : Text} (hf : Segmented front source)
    (hb : Segmented back more) :
    Segmented (front ++ .other '\n' :: back) (source ++ '\n' :: more) := by
  have hbreak : Begins (.other '\n') more := .other (by decide) (by decide) (by simp [OpensComment])
  exact (Cut.append_line hf more).append (.cons hbreak hb)

end Segmented

theorem Terminated.append_line {source more : Text} (hs : Terminated source)
    (hm : Terminated more) : Terminated (source ++ '\n' :: more) :=
  terminated_iff.mpr ⟨_, hs.segmented.append_line hm.segmented⟩

theorem Comment.ofSource_append {source more : Text} (hs : Terminated source)
    (hm : Terminated more) :
    ofSource (source ++ '\n' :: more) =
      ofSource source ++ (ofSource more).map (shift (List.count '\n' source + 1)) := by
  have hline : (1 : Int) + List.count '\n' source + List.count '\n' (Segment.other '\n').text =
      1 + (List.count '\n' source + 1) := by
    rw [Segment.text, List.count_singleton_self]
    omega
  rw [ofSource_eq_numbered, ← (hs.segmented.append_line hm.segmented).eq_all, numbered_append,
    Segment.flatMap_text_all, numbered, hline, numbered_add, ← ofSource_eq_numbered,
    ← ofSource_eq_numbered]
  rfl

end CommentedCode
