import CommentedCode.Proofs.Classifier.Decision
import CommentedCode.Proofs.Comment.Extraction
import CommentedCode.Proofs.Text.Rows
import CommentedCode.Text.Utf8
/-!
# Rows of comments

The rows of a comment count line feeds, and its lines are broken at every kind of line break.  In
a file both are the same, since reading it leaves no carriage return.  So the line that makes a
comment count as code is found on the row that its index tells.
-/
namespace CommentedCode
namespace Comment

variable {source : Text} {c : Comment}

private theorem exists_place (h : c ∈ ofSource source) :
    ∃ before behind, source = before ++ (c.text ++ behind) ∧ c.text ≠ [] ∧
      c.startLine = 1 + List.count '\n' before ∧
      c.endLine = c.startLine + List.count '\n' c.text := by
  rw [ofSource_eq] at h
  obtain ⟨⟨n, text⟩, hmem, rfl⟩ := List.mem_map.mp h
  obtain ⟨before, behind, rest, rfl, rfl, hbegins⟩ := Segment.mem_comments_all hmem
  refine ⟨before, behind, rfl, hbegins.ne_nil, ?_, rfl⟩
  rw [ofSlice, List.take_left]

variable (hsource : '\r' ∉ source)
include hsource

private theorem length_lines (h : c ∈ ofSource source) :
    ((Text.splitLines c.text).length : Int) = c.endLine - c.startLine + 1 := by
  obtain ⟨before, behind, rfl, hne, hstart, hend⟩ := exists_place h
  have htext : '\r' ∉ c.text := by
    intro hmem
    exact hsource (List.mem_append_right _ (List.mem_append_left _ hmem))
  rw [Text.splitLines_of_ne_nil hne, Text.length_breakLines htext, hend]
  omega

private theorem exists_row_of_line (h : c ∈ ofSource source) {i : Nat} {line : Text}
    (hline : (Text.splitLines c.text)[i]? = some line) :
    ∃ before behind lead trail, source = before ++ (line ++ behind) ∧
      c.startLine + i = 1 + List.count '\n' before ∧ lead <:+ before ∧ trail <+: behind ∧
      (Text.splitLines source)[(c.startLine + i - 1).toNat]? = some (lead ++ (line ++ trail)) := by
  have hisLine : Text.IsLine line := Text.isLine_of_mem_splitLines (List.mem_of_getElem? hline)
  obtain ⟨front, back, rfl, hne, hstart, hend⟩ := exists_place h
  simp only [List.mem_append, not_or] at hsource
  obtain ⟨hfront, htext, hback⟩ := hsource
  rw [Text.splitLines_of_ne_nil hne] at hline
  obtain ⟨upTo, onward, hsplit, hcount⟩ := Text.exists_of_breakLines htext hline
  rw [hsplit] at htext
  simp only [List.mem_append, not_or] at htext
  have hbefore : '\r' ∉ front ++ upTo := by
    rw [List.mem_append, not_or]
    exact ⟨hfront, htext.1⟩
  have hbehind : '\r' ∉ onward ++ back := by
    rw [List.mem_append, not_or]
    exact ⟨htext.2.2, hback⟩
  obtain ⟨lead, trail, hlead, htrail, hrow⟩ := Text.exists_row hbefore hisLine hbehind
  have hwhole : front ++ (c.text ++ back) = front ++ upTo ++ (line ++ (onward ++ back)) := by
    rw [hsplit]
    simp only [List.append_assoc]
  have hrows : c.startLine + i = 1 + List.count '\n' (front ++ upTo) := by
    rw [hstart, List.count_append, hcount]
    omega
  have hindex : (c.startLine + i - 1).toNat = List.count '\n' (front ++ upTo) := by
    rw [hrows]
    omega
  have hfull : front ++ (c.text ++ back) ≠ [] := by simp [hne]
  refine ⟨front ++ upTo, onward ++ back, lead, trail, hwhole, hrows, hlead, htrail, ?_⟩
  rw [hindex, Text.splitLines_of_ne_nil hfull, hwhole, hrow]

end Comment

/-- A comment of a file has as many lines as rows.  The line that makes it count as code stands in
the file on the row that its index tells, which is one of the rows of the comment. -/
theorem comment_rows (bs : Utf8.Bytes) {parse : Text → List Capture}
    (hparse : Capture.FollowsRule parse (Source.ofBytes bs))
    (hclosed : Terminated (Source.ofBytes bs)) :
    ∃ found, Comment.extract parse (Source.ofBytes bs) = .ok found ∧ ∀ c ∈ found,
      ((Text.splitLines c.text).length : Int) = c.endLine - c.startLine + 1 ∧
      ∀ {α : Type} [LE α] [DecidableLE α] (o : Options α) (score : Text → α) (i : Nat),
        (classify o score c).scan.verdict.lineIndex? = some i →
        c.startLine ≤ c.startLine + i ∧ c.startLine + i ≤ c.endLine ∧
        ∃ line before behind lead trail, (Text.splitLines c.text)[i]? = some line ∧
          o.threshold ≤ score line ∧ Source.ofBytes bs = before ++ (line ++ behind) ∧
          c.startLine + i = 1 + List.count '\n' before ∧ lead <:+ before ∧ trail <+: behind ∧
          (Text.splitLines (Utf8.decodeLossy bs))[(c.startLine + i - 1).toNat]? =
            some (lead ++ (line ++ trail)) := by
  have hsource : '\r' ∉ Source.ofBytes bs := Text.not_mem_unifyBreaks _
  refine ⟨_, (Comment.extract_exact hparse hclosed).1, ?_⟩
  intro c hc
  have hlength := Comment.length_lines hsource hc
  refine ⟨hlength, ?_⟩
  intro α _ _ o score i hcode
  obtain ⟨-, line, hstop, hskip⟩ := Scan.lineIndex_text_iff.mp hcode
  have hscore : o.threshold ≤ score line := by
    apply hstop.stops.resolve_left
    rw [hskip]
    exact Bool.false_ne_true
  have hi : i < (Text.splitLines c.text).length := (List.getElem?_eq_some_iff.mp hstop.at_index).1
  obtain ⟨before, behind, lead, trail, hplace, hrow, hlead, htrail, hline⟩ :=
    Comment.exists_row_of_line hsource hc hstop.at_index
  rw [Source.ofBytes, Text.splitLines_unifyBreaks] at hline
  refine ⟨by omega, by omega, line, before, behind, lead, trail, ?_⟩
  exact ⟨hstop.at_index, hscore, hplace, hrow, hlead, htrail, hline⟩

/-- A byte that is dropped brings a carriage return and a line feed together. -/
theorem comment_rows_dropped :
    let bs : Utf8.Bytes := [0x0D, 0xFF, 0x0A] ++ Utf8.encode "/*\r\nb*/".toList
    let c : Comment := ⟨"/*\nb*/".toList, 2, 3⟩
    let o : Options Nat := ⟨1, "cmt".toList, true⟩
    let score : Text → Nat := fun line => if line = "b*/".toList then 1 else 0
    Capture.FollowsRule Capture.scan (Source.ofBytes bs) ∧ Terminated (Source.ofBytes bs) ∧
      (classify o score c).scan.verdict.lineIndex? = some 1 ∧
      ∃ line lead trail, (Text.splitLines c.text)[1]? = some line ∧
        (Text.splitLines (Utf8.decodeLossy bs))[(c.startLine + 1 - 1).toNat]? =
          some (lead ++ (line ++ trail)) := by
  intro bs c o score
  have hsource : Source.ofBytes bs = "\n/*\nb*/".toList := by decide
  have hinner : ¬['*', '/'] <:+: ['\n', 'b'] ++ ['*'] := by decide
  have hsegs : Segmented [.other '\n', .comment c.text] (Source.ofBytes bs) := by
    rw [hsource]
    exact .cons (.other (by decide) (by decide) (by decide)) (.cons (.blockComment hinner) .nil)
  have hclosed : Terminated (Source.ofBytes bs) := terminated_iff.mpr ⟨_, hsegs⟩
  have hrule := Capture.scan_followsRule (Source.ofBytes bs)
  have hcode : (classify o score c).scan.verdict.lineIndex? = some 1 := by decide
  obtain ⟨found, hfound, hall⟩ := comment_rows bs hrule hclosed
  have hmem : c ∈ found := by
    have hextract := (Comment.extract_exact hrule hclosed).1
    cases hfound.symm.trans hextract
    rw [Comment.ofSource_eq, ← hsegs.eq_all, hsource]
    decide
  obtain ⟨-, -, line, -, -, lead, trail, hline, -, -, -, -, -, hrow⟩ :=
    (hall c hmem).2 o score 1 hcode
  exact ⟨hrule, hclosed, hcode, line, lead, trail, hline, hrow⟩

end CommentedCode
