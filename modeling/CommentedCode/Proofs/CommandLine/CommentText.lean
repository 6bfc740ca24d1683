import CommentedCode.Proofs.CommandLine.Classifying
import CommentedCode.Proofs.CommandLine.Request
import CommentedCode.Proofs.Evidence.Score
import CommentedCode.Proofs.Files.Lookup
import CommentedCode.Proofs.Text.Encoding
import CommentedCode.Proofs.Text.Splitting
import Mathlib.Data.List.DropRight
/-!
# Ways to give a comment

A comment is given as it is, on standard input or in a file.  The last two lose the line breaks at
the end, and a file has the others unified, which leaves the lines and so the verdict as they are.
-/
namespace CommentedCode

private theorem Source.ofBytes?_encode (cs : Text) :
    Source.ofBytes? (Utf8.encode cs) = .ok (Text.unifyBreaks cs) := by
  rw [Source.ofBytes?, Utf8.decode?_encode]
  rfl

namespace CommandLine

private theorem withoutLastBreaks_concat_break (cs : Text) {c : Char} (h : c = '\r' ∨ c = '\n') :
    withoutLastBreaks (cs ++ [c]) = withoutLastBreaks cs :=
  List.rdropWhile_concat_pos _ _ c (by simpa using h)

private theorem withoutLastBreaks_concat (cs : Text) {c : Char} (h : ¬(c = '\r' ∨ c = '\n')) :
    withoutLastBreaks (cs ++ [c]) = cs ++ [c] :=
  List.rdropWhile_concat_neg _ _ c (by simpa using h)

/-- A break of two characters counts as a single one, whichever of them comes last. -/
private theorem withoutLastBreaks_unifyBreaks_concat (cs : Text) {c : Char}
    (h : c = '\r' ∨ c = '\n') : withoutLastBreaks (Text.unifyBreaks (cs ++ [c])) =
      withoutLastBreaks (Text.unifyBreaks cs) := by
  by_cases hjoined : cs.getLast? = some '\r' ∧ c = '\n'
  · obtain ⟨hlast, rfl⟩ := hjoined
    obtain ⟨front, rfl⟩ := List.getLast?_eq_some_iff.mp hlast
    have hpair : Text.unifyBreaks (front ++ ['\r', '\n']) =
        Text.unifyBreaks (front ++ ['\r']) := by
      rw [Text.unifyBreaks_append (by simp), Text.unifyBreaks_append (by simp)]
      rfl
    rw [List.append_assoc]
    exact congrArg withoutLastBreaks hpair
  · have hcut : cs.getLast? = some '\r' → [c].head? ≠ some '\n' := by
      intro hlast hfirst
      exact hjoined ⟨hlast, Option.some.inj hfirst⟩
    have hbreak : Text.unifyBreaks [c] = ['\n'] := by
      rcases h with rfl | rfl <;> rfl
    rw [Text.unifyBreaks_append hcut, hbreak, withoutLastBreaks_concat_break _ (.inr rfl)]

/-- It does not matter whether breaks are unified before those at the end are dropped. -/
theorem withoutLastBreaks_unifyBreaks (cs : Text) :
    withoutLastBreaks (Text.unifyBreaks cs) = Text.unifyBreaks (withoutLastBreaks cs) := by
  induction cs using List.reverseRecOn with
  | nil => rfl
  | append_singleton cs c ih =>
    by_cases h : c = '\r' ∨ c = '\n'
    · rw [withoutLastBreaks_unifyBreaks_concat cs h, withoutLastBreaks_concat_break cs h, ih]
    · have hcut : cs.getLast? = some '\r' → [c].head? ≠ some '\n' :=
        fun _ hfirst => h (.inr (Option.some.inj hfirst))
      have hkept : Text.unifyBreaks [c] = [c] := by
        rw [Text.unifyBreaks_cons (fun hr => absurd (.inl hr) h), if_neg (h ∘ .inl)]
        rfl
      rw [withoutLastBreaks_concat cs h, Text.unifyBreaks_append hcut, hkept,
        withoutLastBreaks_concat _ h]

/-- What is left of a text that is read has the same lines, but for empty ones at the end. -/
theorem splitLines_withoutLastBreaks (cs : Text) : ∃ n, Text.splitLines cs =
    Text.splitLines (withoutLastBreaks (Text.unifyBreaks cs)) ++ List.replicate n [] := by
  let isBreak (c : Char) := c == '\r' || c == '\n'
  let dropped := ((Text.unifyBreaks cs).reverse.takeWhile isBreak).reverse
  have hsplit : withoutLastBreaks (Text.unifyBreaks cs) ++ dropped = Text.unifyBreaks cs :=
    Text.dropLastWhile_append isBreak _
  have hreturn : '\r' ∉ withoutLastBreaks (Text.unifyBreaks cs) ++ dropped := by
    rw [hsplit]
    exact Text.not_mem_unifyBreaks cs
  rw [List.mem_append, not_or] at hreturn
  have hdropped : dropped = List.replicate dropped.length '\n' := by
    refine List.eq_replicate_iff.mpr ⟨rfl, fun c hc => ?_⟩
    have hbreak : isBreak c = true := List.mem_takeWhile_imp (List.mem_reverse.mp hc)
    simp only [isBreak, Bool.or_eq_true, beq_iff_eq] at hbreak
    exact hbreak.resolve_left fun hr => hreturn.2 (hr ▸ hc)
  obtain ⟨n, hlines⟩ := Text.splitLines_append_replicate hreturn.1 dropped.length
  refine ⟨n, ?_⟩
  rw [← hlines, ← hdropped, hsplit, Text.splitLines_unifyBreaks]

private theorem verdict_of_splitLines {s : Settings} (hs : Options.inRange s.threshold = true)
    {cs left : Text} (h : Text.splitLines left =
      Text.splitLines (withoutLastBreaks (Text.unifyBreaks cs))) :
    (Check.outcome s (Comment.ofText left 1)).scan.verdict =
      (Check.outcome s (Comment.ofText cs 1)).scan.verdict := by
  obtain ⟨n, hlines⟩ := splitLines_withoutLastBreaks cs
  rw [← h] at hlines
  have hverdict : (Scan.text s.options scoreLine cs).verdict =
      (Scan.text s.options scoreLine left).verdict :=
    Scan.verdict_text_of_empty_lines hlines (Options.not_le_scoreLine_nil hs)
  exact hverdict.symm

/-- A comment is classified alike when it is given itself, in a file and on standard input, whether
or not the line breaks of that are unified on the way.  What is then printed is the verdict, and
the line of the code is one of the lines that the comment takes. -/
theorem commentText_verdict {s : Settings} (hs : Options.inRange s.threshold = true)
    (fs : FileSystem) {cs typed name : Text}
    (hread : fs.read (Path.ofText name) = .ok (Utf8.encode cs))
    (htyped : Text.unifyBreaks typed = Text.unifyBreaks cs) :
    ∃ left read, commentText fs typed ['-'] = .ok left ∧
      (∀ input, commentText fs input ('@' :: name) = .ok read) ∧
      read = Text.unifyBreaks left ∧
      (cs ≠ ['-'] → cs.head? ≠ some '@' → ∀ input, commentText fs input cs = .ok cs) ∧
      (∀ text ∈ [cs, left, read], (Check.outcome s (Comment.ofText text 1)).scan.verdict =
        (Check.outcome s (Comment.ofText cs 1)).scan.verdict) ∧
      ∀ (parser : Parser) debug input (r : ClassifyRequest) text,
        ((Request.classify r).settings fs).outcome = .ok s →
        commentText fs input r.comment = .ok text →
        Printed s (Check.outcome s (Comment.ofText text 1))
          ((Request.classify r).run parser fs debug input) := by
  let left := withoutLastBreaks typed
  let read := withoutLastBreaks (Text.unifyBreaks cs)
  have hunified : read = Text.unifyBreaks left := by
    rw [← withoutLastBreaks_unifyBreaks, htyped]
  refine ⟨left, read, rfl, ?_, hunified, ?_, ?_, ?_⟩
  · intro input
    rw [commentText]
    simp only [FileSystem.isFile_of_read hread, hread, Source.ofBytes?_encode, if_true]
    rfl
  · intro hinput hfile input
    rw [commentText]
    · exact hinput
    · rintro rest rfl
      exact hfile rfl
  · have hleft : Text.splitLines left = Text.splitLines read := by
      rw [hunified, Text.splitLines_unifyBreaks]
    intro text htext
    simp only [List.mem_cons, List.not_mem_nil, or_false] at htext
    rcases htext with rfl | rfl | rfl
    · rfl
    · exact verdict_of_splitLines hs hleft
    · exact verdict_of_splitLines hs rfl
  · intro parser debug input r text hsettings htext
    exact Request.printed_run parser debug input hs hsettings htext

/-- Two lines and two more breaks.  Standard input keeps the break between the lines as it is. -/
theorem commentText_verdict_returns :
    let cs := ['a', '\r', '\n', '}', '\r', '\r', '\n']
    let left := ['a', '\r', '\n', '}']
    let read := ['a', '\n', '}']
    let fs : FileSystem := ⟨.file ['c'] (Utf8.encode cs) .empty, []⟩
    (Options.inRange Settings.default.threshold = true ∧
        fs.read (Path.ofText ['c']) = .ok (Utf8.encode cs)) ∧
      commentText fs cs ['-'] = .ok left ∧ commentText fs [] ['@', 'c'] = .ok read ∧
      (∀ text ∈ [left, read], (Check.outcome .default (Comment.ofText text 1)).scan.verdict =
        (Check.outcome .default (Comment.ofText cs 1)).scan.verdict) ∧
      Printed .default (Check.outcome .default (Comment.ofText read 1))
        ((Request.classify ⟨.empty, ['@', 'c']⟩).run .lexical fs false []) := by
  intro cs left read fs
  have hrange : Options.inRange Settings.default.threshold = true := by decide
  have hread : fs.read (Path.ofText ['c']) = .ok (Utf8.encode cs) :=
    FileSystem.read_of_find? rfl (by decide) (by decide)
  have htyped : commentText fs cs ['-'] = .ok left := by
    have hleft : withoutLastBreaks cs = left := by decide
    exact congrArg _ hleft
  obtain ⟨_, _, hinput, hfile, hunified, -, hverdict, hprinted⟩ :=
    commentText_verdict hrange fs hread rfl
  obtain rfl := Except.ok.inj (htyped.symm.trans hinput)
  have hgiven : commentText fs [] ['@', 'c'] = .ok read := by
    rw [hfile, hunified]
    rfl
  have hsettings : ((Request.classify ⟨.empty, ['@', 'c']⟩).settings fs).outcome =
      .ok .default := by
    rw [Request.outcome_settings_of_absent (by decide) rfl]
    rfl
  have hfound := hprinted .lexical false [] ⟨.empty, ['@', 'c']⟩ read hsettings hgiven
  obtain rfl := Except.ok.inj (hgiven.symm.trans (hfile []))
  exact ⟨⟨hrange, hread⟩, htyped, hgiven, fun text htext => hverdict text (.tail _ htext), hfound⟩

end CommandLine
end CommentedCode
