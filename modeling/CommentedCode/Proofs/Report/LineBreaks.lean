import CommentedCode.Proofs.Classifier.EmptyLines
import CommentedCode.Proofs.Comment.LineBreaks
import CommentedCode.Proofs.Files.Lookup
import CommentedCode.Proofs.Report.Violations
import CommentedCode.Proofs.Text.Encoding
/-!
# Checks with other line breaks

What a check finds does not depend on how line breaks are written.  A line comment may have an
empty line at its end, which never stops a search; and the text of a file is the same for all three
line breaks.
-/
namespace CommentedCode

open Text (crlf)

theorem Comment.Rebroken.splitLines {c d : Comment} (h : c.Rebroken d) :
    Text.splitLines d.text = Text.splitLines c.text ∨
      Text.splitLines d.text = Text.splitLines c.text ++ [[]] := by
  have hne : crlf c.text ≠ [] := by
    obtain ⟨x, xs, hx⟩ := List.exists_cons_of_ne_nil h.ne_nil
    rw [hx]
    by_cases hc : x = '\n'
    · rw [hc, Text.crlf_cons_line]
      exact nofun
    · rw [Text.crlf_cons hc]
      exact nofun
  rw [Text.splitLines_of_ne_nil h.ne_nil]
  rcases h.text with htext | htext
  · rw [htext, Text.splitLines_of_ne_nil hne, Text.breakLines_crlf h.noReturn]
    exact .inl rfl
  · rw [htext, Text.splitLines_of_ne_nil (List.append_ne_nil_of_left_ne_nil hne _),
      Text.breakLines_crlf_append h.noReturn]
    exact .inr rfl

namespace Check

private theorem violation?_congr {s : Settings} {c d : Classified Float}
    (hverdict : d.scan.verdict = c.scan.verdict)
    (hstart : d.comment.startLine = c.comment.startLine)
    (hend : d.comment.endLine = c.comment.endLine) : violation? s d = violation? s c := by
  rw [violation?, violation?, hverdict, hstart, hend]

private theorem verdict_rebroken {s : Settings} (hs : Options.inRange s.threshold = true)
    {c d : Comment} (h : c.Rebroken d) :
    (outcome s d).scan.verdict = (outcome s c).scan.verdict := by
  change (Scan.text s.options scoreLine d.text).verdict =
    (Scan.text s.options scoreLine c.text).verdict
  rcases h.splitLines with hlines | hlines
  · rw [Scan.text, Scan.text, hlines]
  · exact Scan.verdict_text_of_empty_lines (n := 1) hlines (Options.not_le_scoreLine_nil hs)

private theorem comments_rebroken {s : Settings} (hs : Options.inRange s.threshold = true)
    {cs ds : List Comment} (h : List.Forall₂ Comment.Rebroken cs ds) :
    comments s ds = comments s cs := by
  induction h with
  | nil => rfl
  | cons hfirst _ ih =>
    rw [comments_cons, comments_cons, ih,
      violation?_congr (verdict_rebroken hs hfirst) hfirst.startLine hfirst.endLine]

end Check

private theorem Source.ofBytes_encode {lineBreak text : Text} (hb : lineBreak ∈ Text.lineBreaks)
    (hr : '\r' ∉ text) : Source.ofBytes (Utf8.encode (Text.withBreaks lineBreak text)) = text := by
  rw [Source.ofBytes, Utf8.decodeLossy_encode, Text.unifyBreaks_withBreaks hb hr]

/-- The violations of a source without carriage returns are those of the source with both
characters for every line break.  A file is checked alike, notices and all, whichever of the three
line breaks it has, and what is reported are the violations of that source. -/
theorem check_line_breaks {s : Settings} (hs : Options.inRange s.threshold = true) {text : Text}
    (hr : '\r' ∉ text) (parser : Parser) :
    (Terminated text → Capture.FollowsRule parser.captures text →
      Capture.FollowsRule parser.captures (crlf text) →
        ∃ cs ds vs, Comment.extract parser.captures text = .ok cs ∧
          Comment.extract parser.captures (crlf text) = .ok ds ∧
          List.Forall₂ Comment.Rebroken cs ds ∧
          Check.comments s cs = .ok vs ∧ Check.comments s ds = .ok vs ∧
          Check.source parser s text = .ok vs ∧ Check.source parser s (crlf text) = .ok vs) ∧
    ∀ p root, ∃ report : Logged CheckError FileReport,
      ((∀ c ∈ parser.captures text, c.Cuts text) → ∃ vs, Check.source parser s text = .ok vs ∧
        report.outcome = .ok ⟨Check.shownPath p root, vs, none⟩) ∧
      ∀ (fs : FileSystem), ∀ lineBreak ∈ Text.lineBreaks,
        fs.read p = .ok (Utf8.encode (Text.withBreaks lineBreak text)) →
          Check.file parser fs s p root = report := by
  constructor
  · intro hclosed hrule hrule'
    obtain ⟨hclosed', hcomments⟩ := Comment.ofSource_crlf hclosed hr
    have hcs := Comment.extract_eq_ofSource (hrule _ hclosed.segmented)
    have hds := Comment.extract_eq_ofSource (hrule' _ hclosed'.segmented)
    obtain ⟨vs, hvs⟩ := Check.exists_comments hs (Comment.ofSource text)
    have hvs' : Check.comments s (Comment.ofSource (crlf text)) = .ok vs :=
      (Check.comments_rebroken hs hcomments).trans hvs
    exact ⟨_, _, vs, hcs, hds, hcomments, hvs, hvs', (Check.source_of_extract hcs).trans hvs,
      (Check.source_of_extract hds).trans hvs'⟩
  · intro p root
    refine ⟨do
      let all ← Check.inspect parser s text
      Logged.tell [.checked (Check.shownPath p root) all.length]
      return ⟨Check.shownPath p root, all, none⟩, ?_, ?_⟩
    · intro hcuts
      obtain ⟨vs, hvs⟩ := Check.exists_source hs hcuts
      refine ⟨vs, hvs, ?_⟩
      rw [Logged.outcome_bind]
      change (Check.source parser s text >>= _) = _
      rw [hvs]
      rfl
    · intro fs lineBreak hb hread
      rw [Check.file_of_read hread, Source.ofBytes_encode hb hr]

/-- A line comment and the break behind it, written in all three ways. -/
theorem check_line_breaks_one_line :
    let text := ['/', '/', ' ', '}', '\n']
    let name := "A.java".toList
    let fs (lineBreak : Text) : FileSystem :=
      ⟨.file name (Utf8.encode (Text.withBreaks lineBreak text)) .empty, []⟩
    (Options.inRange Settings.default.threshold = true ∧ '\r' ∉ text ∧ Terminated text ∧
      Capture.FollowsRule Parser.lexical.captures text ∧
      Capture.FollowsRule Parser.lexical.captures (crlf text)) ∧
      ∃ vs, Check.source .lexical .default text = .ok vs ∧
        Check.source .lexical .default (crlf text) = .ok vs ∧
        Comment.extract Capture.scan (crlf text) = .ok [⟨['/', '/', ' ', '}', '\r'], 1, 1⟩] ∧
        ∀ root, ∃ report : Logged CheckError FileReport,
          report.outcome = .ok ⟨Check.shownPath ⟨[], [name]⟩ root, vs, none⟩ ∧
          ∀ lineBreak ∈ Text.lineBreaks,
            Check.file .lexical (fs lineBreak) .default ⟨[], [name]⟩ root = report := by
  intro text name fs
  have hrange : Options.inRange Settings.default.threshold = true := by decide
  have hr : '\r' ∉ text := by decide
  have hbreak : Segmented [.other '\n'] ['\n'] :=
    .cons (.other (by decide) (by decide) (by decide)) .nil
  have hsegs : Segmented [.comment ['/', '/', ' ', '}'], .other '\n'] text :=
    .cons (.lineComment (by decide) (by simp)) hbreak
  have hclosed : Terminated text := terminated_iff.mpr ⟨_, hsegs⟩
  have hrule := Capture.scan_followsRule text
  have hrule' := Capture.scan_followsRule (crlf text)
  obtain ⟨hsource, hfile⟩ := check_line_breaks hrange hr .lexical
  obtain ⟨cs, ds, vs, hcs, hds, hrebroken, -, -, hvs, hvs'⟩ := hsource hclosed hrule hrule'
  refine ⟨⟨hrange, hr, hclosed, hrule, hrule'⟩, vs, hvs, hvs', ?_, fun root => ?_⟩
  · have hcut : Segmented [.comment ['/', '/', ' ', '}', '\r'], .other '\n'] (crlf text) :=
      .cons (.lineComment (by decide) (by simp)) hbreak
    rw [Comment.extract_eq_ofSource (hrule' _ (terminated_iff.mpr ⟨_, hcut⟩).segmented),
      Comment.ofSource_eq, ← hcut.eq_all]
    rfl
  · obtain ⟨report, houtcome, hreport⟩ := hfile ⟨[], [name]⟩ root
    obtain ⟨ws, hws, hreported⟩ := houtcome (hrule.cuts hclosed)
    obtain rfl := Except.ok.inj (hws.symm.trans hvs)
    refine ⟨report, hreported, fun lineBreak hb => ?_⟩
    exact hreport (fs lineBreak) lineBreak hb (FileSystem.read_of_find? rfl (by decide) (by decide))

end CommentedCode
