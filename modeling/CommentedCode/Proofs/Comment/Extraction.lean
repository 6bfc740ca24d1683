import CommentedCode.Proofs.Comment.Placement
import CommentedCode.Proofs.Outcome
import Mathlib.Data.List.Nodup
/-!
# Exact extraction

Whatever a parser reports the comments in, the comments that are extracted are those of the
segmentation, on their lines.
-/
namespace CommentedCode

/-- A comment with the lines that its offset gives. -/
def Comment.ofSlice (source : Text) (n : Nat) (text : Text) : Comment :=
  let line : Int := 1 + List.count '\n' (source.take n)
  ⟨text, line, line + List.count '\n' text⟩

namespace Capture

private theorem advance_close (p : Position) (cs : Text) :
    (p.advance (cs ++ ['*', '/'])).column ≠ 0 := by
  rw [Position.advance_append]
  change (((p.advance cs).next '*').next '/').column ≠ 0
  simp [Position.next, Char.utf8Size]

private theorem lastRow_comment {text rest : Text} (h : Begins (.comment text) rest)
    (p : Position) : lastRow ⟨p, p.advance text⟩ = (p.advance text).row := by
  rw [lastRow, if_neg]
  intro ⟨hrow, hcolumn⟩
  dsimp only at hrow hcolumn
  cases h with
  | @lineComment body _ hbody _ =>
    have hcount : List.count '\n' ('/' :: '/' :: body) = 0 := by
      rw [List.count_eq_zero]
      simpa using hbody
    rw [Position.advance_row, hcount] at hrow
    omega
  | @blockComment body _ _ =>
    exact advance_close p ('/' :: '*' :: body) hcolumn

private theorem lastRow_slice {source text : Text} {n : Nat}
    (h : (n, text) ∈ Segment.comments 0 (Segment.all source)) :
    (slice source n text.length).lastRow = (slice source n text.length).stop.row := by
  obtain ⟨before, behind, _, rfl, rfl, hbegins⟩ := Segment.mem_comments_all h
  rw [slice_append]
  exact lastRow_comment hbegins _

private theorem scan_pairwise (source : Text) :
    (scan source).Pairwise fun a b => a.start.byte < b.start.byte := by
  rw [scan_eq, List.pairwise_map]
  refine (Segment.comments_pairwise 0 _).imp_of_mem ?_
  intro ⟨n, t⟩ ⟨m, u⟩ ht hu hle
  obtain ⟨_, _, _, -, -, hbegins⟩ := Segment.mem_comments_all ht
  have hpos : 0 < t.length := List.length_pos_iff.mpr hbegins.ne_nil
  obtain ⟨before, behind, _, hsource, rfl, -⟩ := Segment.mem_comments_all hu
  have hm : before.length ≤ source.length := by
    rw [hsource, List.length_append]
    omega
  exact Position.advance_take_lt .start (by dsimp only at hle; omega) hm

/-- Sorting brings the captures into the order of the source, whatever order they come in. -/
theorem mergeSort_eq_scan {source : Text} {captures : List Capture}
    (h : captures.Perm (scan source)) :
    captures.mergeSort (fun a b => a.start.byte ≤ b.start.byte) = scan source :=
  mergeSort_eq_of_perm h (scan_pairwise source)

end Capture

namespace Comment

private theorem mapM_ok {ε α β : Type} {f : α → Except ε β} {g : α → β} {l : List α}
    (h : ∀ a ∈ l, f a = .ok (g a)) : l.mapM f = .ok (l.map g) := by
  induction l with
  | nil => rfl
  | cons a l ih =>
    have htail := ih fun b hb => h b (List.mem_cons_of_mem a hb)
    rw [List.mapM_cons, h a List.mem_cons_self, htail]
    rfl

private theorem ofCapture?_slice {source text : Text} {n : Nat}
    (h : (n, text) ∈ Segment.comments 0 (Segment.all source)) :
    ofCapture? (Utf8.encode source) (Capture.slice source n text.length) =
      .ok (Comment.ofSlice source n text) := by
  obtain ⟨before, behind, _, hsource, rfl, hbegins⟩ := Segment.mem_comments_all h
  generalize hp : Position.advance .start before = p
  have hbyte : p.byte = (Utf8.encode before).length := by
    rw [← hp, Position.advance_byte]
    exact Nat.zero_add _
  have hrow : p.row = List.count '\n' before := by
    rw [← hp, Position.advance_row]
    exact Nat.zero_add _
  have hwidth : (p.advance text).byte - p.byte = (Utf8.encode text).length := by
    rw [Position.advance_byte]
    omega
  have hline : (p.row : Int) + 1 = 1 + List.count '\n' before := by omega
  have hlast : ((p.advance text).row : Int) + 1 =
      1 + List.count '\n' before + List.count '\n' text := by
    rw [Position.advance_row]
    omega
  rw [hsource, Capture.slice_append, hp, ofCapture?, Capture.lastRow_comment hbegins]
  dsimp only
  rw [hwidth, hbyte, Utf8.slice_encode, Utf8.decode?_encode, hline, hlast, Comment.ofSlice,
    List.take_left]
  rfl

/-- The comments are extracted in the order of the source, whatever order they are reported
in. -/
theorem extract_of_perm {parse : Text → List Capture} {source : Text}
    (h : (parse source).Perm (Capture.scan source)) :
    extract parse source = .ok
      ((Segment.comments 0 (Segment.all source)).map fun p => Comment.ofSlice source p.1 p.2) := by
  rw [extract, Capture.mergeSort_eq_scan h, Capture.scan_eq, List.mapM_map]
  apply mapM_ok
  intro ⟨n, text⟩ hmem
  exact ofCapture?_slice hmem

theorem ofSource_eq (source : Text) :
    ofSource source =
      (Segment.comments 0 (Segment.all source)).map fun p => Comment.ofSlice source p.1 p.2 := by
  rw [ofSource, extract_of_perm (.refl _)]

/-- The captures of a parser always decode if they are those of the scanner. -/
theorem extract_eq_ofSource {parse : Text → List Capture} {source : Text}
    (h : (parse source).Perm (Capture.scan source)) :
    extract parse source = .ok (ofSource source) := by
  rw [extract_of_perm h, ofSource_eq]

private theorem count_take_le {n m : Nat} (h : n ≤ m) (source : Text) :
    List.count '\n' (source.take n) ≤ List.count '\n' (source.take m) :=
  (List.take_sublist_take_left h).count_le _

private theorem endLine_ofSlice {source text : Text} {n : Nat}
    (h : (source.drop n).take text.length = text) :
    (Comment.ofSlice source n text).endLine =
      1 + List.count '\n' (source.take (n + text.length)) := by
  rw [Comment.ofSlice, List.take_add, List.count_append, h]
  dsimp only
  omega

private theorem rows_ofSlice {source text : Text} {n : Nat}
    (h : (source.drop n).take text.length = text) : 1 ≤ (Comment.ofSlice source n text).startLine ∧
      (Comment.ofSlice source n text).startLine ≤ (Comment.ofSlice source n text).endLine ∧
      (Comment.ofSlice source n text).endLine ≤ 1 + List.count '\n' source := by
  have hbound : List.count '\n' (source.take (n + text.length)) ≤ List.count '\n' source :=
    (List.take_sublist _ _).count_le _
  rw [endLine_ofSlice h]
  have hstart := count_take_le (Nat.le_add_right n text.length) source
  simp only [Comment.ofSlice]
  omega

private theorem endLine_le {source text more : Text} {n m : Nat}
    (h : (source.drop n).take text.length = text) (hle : n + text.length ≤ m) :
    (Comment.ofSlice source n text).endLine ≤ (Comment.ofSlice source m more).startLine := by
  have hcount := count_take_le hle source
  rw [endLine_ofSlice h]
  simp only [Comment.ofSlice]
  omega

end Comment

namespace Segmented

variable {segs : List Segment} {source text : Text} {n : Nat}

private theorem begins_of_placed {s : Segment} (h : Segmented segs source)
    (hmem : (n, s) ∈ Segment.placed 0 segs) :
    ∃ rest, source.drop n = s.text ++ rest ∧ Begins s rest := by
  obtain ⟨front, back, rfl, rfl⟩ := Segment.mem_placed.mp hmem
  refine ⟨back.flatMap Segment.text, ?_, ?_⟩
  · rw [h.source_eq, List.flatMap_append, Nat.zero_add, List.drop_left, List.flatMap_cons]
  · simpa using Cut.begins h

private theorem take_drop_comment (h : Segmented segs source)
    (hmem : (n, text) ∈ Segment.comments 0 segs) : (source.drop n).take text.length = text := by
  obtain ⟨rest, hdrop, -⟩ := h.begins_of_placed (Segment.mem_comments.mp hmem)
  rw [hdrop]
  exact List.take_left

private theorem begins_comment (h : Segmented segs source)
    (hmem : (n, text) ∈ Segment.comments 0 segs) :
    Begins (.comment text) (source.drop (n + text.length)) := by
  obtain ⟨rest, hdrop, hbegins⟩ := h.begins_of_placed (Segment.mem_comments.mp hmem)
  have hrest : source.drop (n + text.length) = rest := by
    rw [← List.drop_drop, hdrop]
    exact List.drop_left
  rwa [hrest]

private theorem comments_apart (h : Segmented segs source) :
    (Segment.comments 0 segs).Pairwise fun p q => p.1 < q.1 ∧ p.1 + p.2.length ≤ q.1 := by
  refine (Segment.comments_pairwise 0 segs).imp_of_mem ?_
  intro ⟨n, t⟩ q hmem _ hle
  have hpos : 0 < t.length := List.length_pos_iff.mpr (h.begins_comment hmem).ne_nil
  dsimp only at hle ⊢
  omega

private theorem opener_covered (h : Segmented segs source) (hopen : OpensComment (source.drop n)) :
    ∃ p ∈ Segment.placed 0 segs, p.1 ≤ n ∧ n < p.1 + p.2.text.length ∧
      ∀ c, p.2 ≠ .other c := by
  have hlength : n < source.length := by
    have hne : source.drop n ≠ [] := by
      intro heq
      rw [heq] at hopen
      rcases hopen with hline | hblock
      · simp at hline
      · simp at hblock
    rw [ne_eq, List.drop_eq_nil_iff] at hne
    omega
  rw [h.source_eq] at hlength
  obtain ⟨⟨m, s⟩, hmem, hle, hlt⟩ :=
    Segment.exists_placed (Nat.zero_le n) (by omega : n < 0 + (segs.flatMap Segment.text).length)
  refine ⟨(m, s), hmem, hle, hlt, ?_⟩
  rintro c rfl
  obtain ⟨rest, hdrop, hbegins⟩ := h.begins_of_placed hmem
  obtain rfl : m = n := by
    simp only [Segment.text, List.length_singleton] at hlt
    omega
  rw [hdrop] at hopen
  cases hbegins with
  | other _ _ hnot => exact hnot hopen

end Segmented

namespace Comment

/-- The comments of a source, as its segmentation `segs` gives them. -/
structure Exact (source : Text) (segs : List Segment) (found : List Comment) : Prop where
  segmented : Segmented segs source
  unique : ∀ other, Segmented other source → other = segs
  found_eq : found = (Segment.comments 0 segs).map fun p => Comment.ofSlice source p.1 p.2
  slices : ∀ p ∈ Segment.comments 0 segs, (source.drop p.1).take p.2.length = p.2
  apart : (Segment.comments 0 segs).Pairwise fun p q => p.1 < q.1 ∧ p.1 + p.2.length ≤ q.1
  /-- A line comment goes up to a line feed or to the end. -/
  lineComment : ∀ p ∈ Segment.comments 0 segs, ['/', '/'] <+: p.2 →
    '\n' ∉ p.2 ∧ ∀ c ∈ (source.drop (p.1 + p.2.length)).head?, c = '\n'
  /-- A block comment ends with the first `*/` behind its opener. -/
  blockComment : ∀ p ∈ Segment.comments 0 segs, ['/', '/'] <+: p.2 ∨
    ∃ body, p.2 = ['/', '*'] ++ body ++ ['*', '/'] ∧ ¬['*', '/'] <:+: body ++ ['*']
  rows : ∀ c ∈ found,
    1 ≤ c.startLine ∧ c.startLine ≤ c.endLine ∧ c.endLine ≤ 1 + List.count '\n' source
  rowOrder : found.Pairwise fun b c => b.endLine ≤ c.startLine
  /-- What could open a comment lies in a comment or in a literal. -/
  covered : ∀ n, OpensComment (source.drop n) →
    ∃ p ∈ Segment.placed 0 segs, p.1 ≤ n ∧ n < p.1 + p.2.text.length ∧ ∀ c, p.2 ≠ .other c

end Comment

theorem Segmented.exact {segs : List Segment} {source : Text} (h : Segmented segs source) :
    Comment.Exact source segs (Comment.ofSource source) := by
  have hall : Segment.all source = segs := h.eq_all.symm
  have hfound : Comment.ofSource source =
      (Segment.comments 0 segs).map fun p => Comment.ofSlice source p.1 p.2 := by
    rw [Comment.ofSource_eq, hall]
  constructor
  case segmented => exact h
  case unique => exact fun other hother => hother.eq_all.trans hall
  case found_eq => exact hfound
  case slices => exact fun p hp => h.take_drop_comment hp
  case apart => exact h.comments_apart
  case lineComment =>
    intro ⟨n, text⟩ hmem hopen
    cases h.begins_comment hmem with
    | lineComment hbody hrest => exact ⟨by simpa using hbody, hrest⟩
    | blockComment _ => simp at hopen
  case blockComment =>
    intro ⟨n, text⟩ hmem
    cases h.begins_comment hmem with
    | @lineComment body _ _ _ => exact Or.inl ⟨body, rfl⟩
    | @blockComment body _ hfirst => exact Or.inr ⟨body, rfl, hfirst⟩
  case rows =>
    intro c hc
    rw [hfound] at hc
    obtain ⟨⟨n, text⟩, hmem, rfl⟩ := List.mem_map.mp hc
    exact Comment.rows_ofSlice (h.take_drop_comment hmem)
  case rowOrder =>
    rw [hfound, List.pairwise_map]
    refine h.comments_apart.imp_of_mem ?_
    intro ⟨n, text⟩ ⟨m, more⟩ hmem _ ⟨_, hle⟩
    exact Comment.endLine_le (h.take_drop_comment hmem) hle
  case covered => exact fun n hopen => h.opener_covered hopen

/-- A parser reports, in some order, just the comments that the segmentation of a source has. -/
def Capture.FollowsRule (parse : Text → List Capture) (source : Text) : Prop :=
  ∀ segs, Segmented segs source → (parse source).Perm (ofSegments .start segs)

theorem Capture.scan_followsRule (source : Text) : FollowsRule scan source := by
  intro segs h
  rw [scan, ← h.eq_all]

/-- Of a source in which everything is closed, the extracted comments are those of its
segmentation, and no row is corrected. -/
theorem Comment.extract_exact {parse : Text → List Capture} {source : Text}
    (hparse : Capture.FollowsRule parse source) (h : Terminated source) :
    extract parse source = .ok (ofSource source) ∧
      (∀ c ∈ parse source, c.lastRow = c.stop.row) ∧
      ∃ segs, Exact source segs (ofSource source) := by
  have hsegs := h.segmented
  have hperm : (parse source).Perm (Capture.scan source) := hparse _ hsegs
  refine ⟨extract_eq_ofSource hperm, ?_, Segment.all source, hsegs.exact⟩
  intro c hc
  have hscan := hperm.mem_iff.mp hc
  rw [Capture.scan_eq] at hscan
  obtain ⟨⟨n, text⟩, hmem, rfl⟩ := List.mem_map.mp hscan
  exact Capture.lastRow_slice hmem

/-! ### Captures of whole characters -/

/-- A capture that starts and stops between characters of a source. -/
def Capture.Cuts (source : Text) (c : Capture) : Prop :=
  ∃ before body behind, source = before ++ (body ++ behind) ∧
    c.start.byte = (Utf8.encode before).length ∧
    c.stop.byte = (Utf8.encode before).length + (Utf8.encode body).length

/-- No capture starts or stops within a character. -/
def Parser.KeepsCharacters (parser : Parser) : Prop :=
  ∀ source, ∀ c ∈ parser.captures source, c.Cuts source

private theorem Comment.ofCapture?_of_cuts {source : Text} {c : Capture} (h : c.Cuts source) :
    ∃ comment, ofCapture? (Utf8.encode source) c = .ok comment := by
  obtain ⟨before, body, behind, rfl, hstart, hstop⟩ := h
  refine ⟨⟨body, c.start.row + 1, c.lastRow + 1⟩, ?_⟩
  rw [ofCapture?, hstart, hstop, Nat.add_sub_cancel_left, Utf8.slice_encode, Utf8.decode?_encode]
  rfl

/-- Captures of whole characters can be extracted, in whatever order they come. -/
theorem Comment.exists_extract {parse : Text → List Capture} {source : Text}
    (h : ∀ c ∈ parse source, c.Cuts source) : ∃ cs, extract parse source = .ok cs := by
  have hmapM : ReturnsIff
      (∀ c ∈ (parse source).mergeSort fun a b => a.start.byte ≤ b.start.byte, True)
      (fun _ => True) (extract parse source) :=
    .mapM fun c hc => .of_ok (ofCapture?_of_cuts (h c (List.mem_mergeSort.mp hc))) trivial
  exact hmapM.returns fun _ _ => trivial

private theorem Capture.cuts_of_mem_scan {source : Text} {c : Capture} (h : c ∈ scan source) :
    c.Cuts source := by
  rw [scan_eq] at h
  obtain ⟨⟨n, text⟩, hmem, rfl⟩ := List.mem_map.mp h
  obtain ⟨before, behind, _, rfl, rfl, -⟩ := Segment.mem_comments_all hmem
  refine ⟨before, text, behind, rfl, ?_, ?_⟩
  · rw [slice_append, Position.advance_byte]
    exact Nat.zero_add _
  · rw [slice_append, Position.advance_byte, Position.advance_byte]
    exact congrArg (· + _) (Nat.zero_add _)

theorem Capture.FollowsRule.cuts {parse : Text → List Capture} {source : Text}
    (h : FollowsRule parse source) (hclosed : Terminated source) :
    ∀ c ∈ parse source, c.Cuts source :=
  fun _ hc => cuts_of_mem_scan ((h _ hclosed.segmented).mem_iff.mp hc)

theorem Parser.keepsCharacters_lexical : lexical.KeepsCharacters :=
  fun _ _ => Capture.cuts_of_mem_scan

/-- A comment opener in a string opens nothing. -/
theorem Comment.extract_exact_quoted :
    let source := "\"//\"/*\n*/// b\n".toList
    Capture.FollowsRule Capture.scan source ∧ Terminated source ∧
      extract Capture.scan source =
        .ok [⟨"/*\n*/".toList, 1, 2⟩, ⟨"// b".toList, 2, 2⟩] := by
  intro source
  have hquote : QuoteBody '"' ['/', '/', '"'] :=
    .char (by decide) (by decide) (.char (by decide) (by decide) .close)
  have hbreak : Segmented [.other '\n'] ['\n'] :=
    .cons (.other (by decide) (by decide) (by decide)) .nil
  have hline : Segmented [.comment ['/', '/', ' ', 'b'], .other '\n']
      ['/', '/', ' ', 'b', '\n'] :=
    .cons (.lineComment (by decide) (by simp)) hbreak
  have hinner : ¬['*', '/'] <:+: ['\n'] ++ ['*'] := by decide
  have hsegs : Segmented [.literal ['"', '/', '/', '"'], .comment ['/', '*', '\n', '*', '/'],
      .comment ['/', '/', ' ', 'b'], .other '\n'] source :=
    .cons (.string hquote (by decide)) (.cons (.blockComment hinner) hline)
  have hclosed : Terminated source := terminated_iff.mpr ⟨_, hsegs⟩
  have hextract := (Comment.extract_exact (Capture.scan_followsRule source) hclosed).1
  refine ⟨Capture.scan_followsRule source, hclosed, ?_⟩
  rw [hextract, ofSource_eq, ← hsegs.eq_all]
  rfl

end CommentedCode
