import CommentedCode.CommandLine.Run
import CommentedCode.Proofs.Classifier.EmptyLines
import CommentedCode.Proofs.Report.Violations
/-!
# Requests to classify

A request to classify prints what is found in its comment as one object on one line.  Where that
is code, the object holds the number of the line that it is on, and the message about it.
-/
namespace CommentedCode

private theorem Comment.endLine_ofText (cs : Text) (startLine : Int) :
    (ofText cs startLine).endLine = startLine + max 1 (Text.splitLines cs).length - 1 := rfl

namespace CommandLine

theorem finish_of_ok {least : Level} {answer : Logged RunError Answer} {a : Answer}
    (h : answer.outcome = .ok a) :
    finish least answer = .ok ⟨a.code, a.text, Notice.linesFrom least answer.notices⟩ := by
  simp only [finish, h]

theorem finish_of_message {least : Level} {answer : Logged RunError Answer} {error : RunError}
    {message : Text} (h : answer.outcome = .error error)
    (hmessage : error.userMessage? = some message) :
    finish least answer = .ok ⟨usageCode, [],
      Notice.linesFrom least answer.notices ++ Text.trimRight message ++ ['\n']⟩ := by
  simp only [finish, h, hmessage]

theorem finish_of_no_message {least : Level} {answer : Logged RunError Answer}
    {error : RunError} (h : answer.outcome = .error error)
    (hmessage : error.userMessage? = none) : finish least answer = .error error := by
  simp only [finish, h, hmessage]

/-- The object about a comment in which there is no code. -/
def proseJson : Json :=
  .object [("isCode", .bool false), ("probability", .null), ("line", .null)]

/-- The object about a comment with code. -/
def codeJson (probability : Float) (line : Int) (message : Text) : Json :=
  .object [("isCode", .bool true), ("probability", .float probability), ("line", .int line),
    ("message", .text message)]

/-- How a request ends that found this in its comment.  The number of a line may be too long to be
written. -/
inductive Printed (s : Settings) (found : Classified Float) : Except RunError Output → Prop
  | prose (stderr : Text) (h : found.scan.verdict.isCode = false) :
      Printed s found (.ok ⟨0, proseJson.render, stderr⟩)
  | code (stderr : Text) {i : Nat} {p : Float} {line : Int} {message : Text}
      (h : found.scan.verdict = .code i p) (hline : line = found.comment.startLine + i)
      (hstart : found.comment.startLine ≤ line) (hend : line ≤ found.comment.endLine)
      (hmessage : Message.text? s found.comment.startLine found.comment.endLine (.float p) =
        some message) (hdigits : line.natAbs < 10 ^ digitLimit) :
      Printed s found (.ok ⟨0, (codeJson p line message).render, stderr⟩)
  | unwritable {i : Nat} {p : Float} (h : found.scan.verdict = .code i p)
      (hdigits : 10 ^ digitLimit ≤ (found.comment.startLine + i).natAbs) :
      Printed s found (.error .unwritable)

theorem written_eq (json : Json) :
    written json = if json.isWritable then .ok json.render else .error .unwritable := by
  rw [written, Json.written?]
  split <;> simp_all

private theorem written_codeJson (p : Float) (line : Int) (message : Text) :
    written (codeJson p line message) = if line.natAbs < 10 ^ digitLimit then
      .ok (codeJson p line message).render else .error .unwritable := by
  rw [written_eq]
  simp [codeJson, Json.isWritable, Json.membersWritable]

private theorem line_le_of_code {s : Settings} {cs : Text} {startLine : Int} {i : Nat} {p : Float}
    (h : (Check.outcome s (Comment.ofText cs startLine)).scan.verdict = .code i p) :
    startLine + i ≤ (Comment.ofText cs startLine).endLine := by
  have hindex : (Scan.text s.options scoreLine cs).verdict.lineIndex? = some i :=
    congrArg Verdict.lineIndex? h
  have hlt := Scan.lt_of_lineIndex_text hindex
  rw [Comment.endLine_ofText]
  omega

private theorem verdictJson_of_prose (s : Settings) {found : Classified Float}
    (h : found.scan.verdict.isCode = false) : verdictJson s found = .ok proseJson := by
  rw [verdictJson]
  cases hverdict : found.scan.verdict with
  | code i p => simp [hverdict, Verdict.isCode] at h
  | _ => rfl

private theorem verdictJson_of_code {s : Settings} {found : Classified Float} {i : Nat} {p : Float}
    {message : Text} (h : found.scan.verdict = .code i p)
    (hmessage : Message.text? s found.comment.startLine found.comment.endLine (.float p) =
      some message) :
    verdictJson s found = .ok (codeJson p (found.comment.startLine + i) message) := by
  rw [verdictJson, h]
  dsimp only [Verdict.probability?]
  rw [hmessage]
  rfl

private theorem ClassifyRequest.outcome_answer (fs : FileSystem) (input : Text)
    (r : ClassifyRequest) (s : Settings) : (r.answer fs input s).outcome = (do
      let text ← commentText fs input r.comment
      let json ← verdictJson s (Check.outcome s (Comment.ofText text 1))
      let answer ← written json
      return ⟨0, answer⟩) := by
  rw [ClassifyRequest.answer, Logged.outcome_bind]
  refine congrArg _ (funext fun text => ?_)
  simp only [Logged.outcome_bind]
  rfl

namespace Request

/-- A request with usable settings and a comment that can be read prints what is found. -/
theorem printed_run (parser : Parser) {fs : FileSystem} (debug : Bool) (input : Text)
    {r : ClassifyRequest} {s : Settings} (hs : Options.inRange s.threshold = true)
    (hsettings : ((classify r).settings fs).outcome = .ok s) {text : Text}
    (htext : commentText fs input r.comment = .ok text) :
    Printed s (Check.outcome s (Comment.ofText text 1))
      ((classify r).run parser fs debug input) := by
  let found := Check.outcome s (Comment.ofText text 1)
  have hanswer {json : Json} (hjson : verdictJson s found = .ok json) :
      ((classify r).answer parser [] fs input).outcome = (written json).map (⟨0, ·⟩) := by
    rw [answer, Logged.outcome_bind, hsettings]
    change (r.answer fs input s).outcome = _
    rw [r.outcome_answer, htext]
    change verdictJson s found >>= _ = _
    rw [hjson]
    rfl
  cases hverdict : found.scan.verdict with
  | code i p =>
    obtain ⟨message, hmessage⟩ :=
      Option.isSome_iff_exists.mp (Check.isSome_text?_of_code hs hverdict)
    have hwritten := hanswer (verdictJson_of_code hverdict hmessage)
    rw [written_codeJson] at hwritten
    by_cases hdigits : (found.comment.startLine + i).natAbs < 10 ^ digitLimit
    · rw [if_pos hdigits] at hwritten
      rw [run, runBy, finish_of_ok hwritten]
      exact .code _ hverdict rfl (Int.le_add_of_nonneg_right (Int.natCast_nonneg i))
        (line_le_of_code hverdict) hmessage hdigits
    · rw [if_neg hdigits] at hwritten
      rw [run, runBy, finish_of_no_message hwritten rfl]
      exact .unwritable hverdict (Nat.le_of_not_lt hdigits)
  | _ =>
    have hprose : found.scan.verdict.isCode = false := by
      rw [hverdict]
      rfl
    rw [run, runBy, finish_of_ok (hanswer (verdictJson_of_prose s hprose))]
    exact .prose _ hprose

end Request
end CommandLine
end CommentedCode
