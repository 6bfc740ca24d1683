import CommentedCode.Proofs.Classifier.Decision
import CommentedCode.Proofs.Comment.Extraction
import CommentedCode.Proofs.Comment.Numbering
import CommentedCode.Proofs.Decimal.Places
import CommentedCode.Proofs.Evidence.Score
import CommentedCode.Report.Check
import Mathlib.Data.List.Forall2
/-!
# Violations of comments

The violations of several comments are those of each in order.  A comment that is moved keeps its
verdict, so only the lines of its violation change, and the message with them.  With a threshold
in range every message can be written.
-/
namespace CommentedCode

/-- `w` is the violation `v`, found `k` lines further down, with the message for its lines. -/
structure Violation.Shifted (s : Settings) (k : Int) (v w : Violation) : Prop where
  startLine : w.startLine = v.startLine + k
  endLine : w.endLine = v.endLine + k
  probability : w.probability = v.probability
  message : Message.text? s w.startLine w.endLine (.float w.probability) = some w.message

private theorem Message.isSome_text?_lines (s : Settings) (a b c d : Int) (p : Value) :
    (text? s a b p).isSome = (text? s c d p).isSome := by
  rw [text?, text?]
  cases p.twoPlaces? <;> cases (Value.float s.threshold).twoPlaces? <;> rfl

/-- The probability of code is the score of a line that reaches the threshold. -/
theorem Scan.exists_line_of_code {α : Type} [LE α] [DecidableLE α] {o : Options α}
    {score : Text → α} {cs : Text} {i : Nat} {p : α}
    (h : (text o score cs).verdict = .code i p) :
    ∃ line, p = score line ∧ o.threshold ≤ score line := by
  obtain ⟨hexempt, line, hstop, hskip⟩ :=
    lineIndex_text_iff.mp (by rw [h]; rfl : (text o score cs).verdict.lineIndex? = some i)
  rw [text_of_code hexempt hstop hskip] at h
  exact ⟨line, (Verdict.code.inj h).2.symm, hstop.stops.resolve_left (by simp [hskip])⟩

namespace Check

theorem comments_cons (s : Settings) (c : Comment) (cs : List Comment) :
    comments s (c :: cs) = do
      let first ← violation? s (outcome s c)
      let rest ← comments s cs
      return first.toList ++ rest := rfl

private theorem comments_cons_ok {s : Settings} {c : Comment} {cs : List Comment}
    {vs : List Violation} :
    comments s (c :: cs) = .ok vs ↔ ∃ first rest, violation? s (outcome s c) = .ok first ∧
      comments s cs = .ok rest ∧ vs = first.toList ++ rest := by
  rw [comments_cons]
  cases violation? s (outcome s c) with
  | error e => exact ⟨nofun, fun ⟨_, _, h, _⟩ => nomatch h⟩
  | ok first =>
    cases comments s cs with
    | error e => exact ⟨nofun, fun ⟨_, _, _, h, _⟩ => nomatch h⟩
    | ok rest =>
      constructor
      · intro h
        exact ⟨first, rest, rfl, rfl, (Except.ok.inj h).symm⟩
      · rintro ⟨f, r, hf, hr, rfl⟩
        obtain rfl := Except.ok.inj hf
        obtain rfl := Except.ok.inj hr
        rfl

theorem exists_violation?_of_mem {s : Settings} {cs : List Comment} {vs : List Violation}
    (h : comments s cs = .ok vs) {v : Violation} (hv : v ∈ vs) :
    ∃ c ∈ cs, violation? s (outcome s c) = .ok (some v) := by
  induction cs generalizing vs with
  | nil =>
    obtain rfl : vs = [] := (Except.ok.inj h).symm
    cases hv
  | cons c cs ih =>
    obtain ⟨first, rest, hfirst, hrest, rfl⟩ := comments_cons_ok.mp h
    rcases List.mem_append.mp hv with hhead | htail
    · obtain rfl := Option.mem_toList.mp hhead
      exact ⟨c, List.mem_cons_self, hfirst⟩
    · obtain ⟨d, hd, hviolation⟩ := ih hrest htail
      exact ⟨d, List.mem_cons_of_mem c hd, hviolation⟩

theorem comments_append {s : Settings} {as bs : List Comment} {va vb : List Violation}
    (ha : comments s as = .ok va) (hb : comments s bs = .ok vb) :
    comments s (as ++ bs) = .ok (va ++ vb) := by
  induction as generalizing va with
  | nil =>
    obtain rfl : va = [] := (Except.ok.inj ha).symm
    exact hb
  | cons c as ih =>
    obtain ⟨first, rest, hfirst, hrest, rfl⟩ := comments_cons_ok.mp ha
    rw [List.cons_append, comments_cons_ok]
    exact ⟨first, rest ++ vb, hfirst, ih hrest, List.append_assoc ..⟩

private theorem violation?_of_code {s : Settings} {c : Classified Float} {i : Nat} {p : Float}
    {message : Text} (hverdict : c.scan.verdict = .code i p)
    (hmessage : Message.text? s c.comment.startLine c.comment.endLine (.float p) = some message) :
    violation? s c = .ok (some ⟨c.comment.startLine, c.comment.endLine, p, message⟩) := by
  rw [violation?, hverdict]
  dsimp only
  rw [hmessage]

private theorem violation?_shift {s : Settings} {k : Int} {c : Comment} {v : Option Violation}
    (h : violation? s (outcome s c) = .ok v) :
    ∃ w, violation? s (outcome s (c.shift k)) = .ok w ∧
      List.Forall₂ (Violation.Shifted s k) v.toList w.toList := by
  have hscan : (outcome s (c.shift k)).scan = (outcome s c).scan := rfl
  cases hverdict : (outcome s c).scan.verdict with
  | code i p =>
    have hlines := Message.isSome_text?_lines s c.startLine c.endLine (c.startLine + k)
      (c.endLine + k) (.float p)
    cases hmessage : Message.text? s c.startLine c.endLine (.float p) with
    | none =>
      rw [violation?, hverdict] at h
      dsimp only [outcome, classify] at h
      rw [hmessage] at h
      cases h
    | some message =>
      rw [hmessage] at hlines
      obtain ⟨moved, hmoved⟩ := Option.isSome_iff_exists.mp hlines.symm
      rw [violation?_of_code hverdict hmessage] at h
      obtain rfl := Except.ok.inj h
      exact ⟨_, violation?_of_code (hscan ▸ hverdict) hmoved, .cons ⟨rfl, rfl, rfl, hmoved⟩ .nil⟩
  | _ =>
    rw [violation?, hverdict] at h
    obtain rfl := Except.ok.inj h
    exact ⟨none, by rw [violation?, hscan, hverdict], .nil⟩

/-- Comments that are moved together have their violations moved. -/
theorem comments_shift {s : Settings} {k : Int} {cs : List Comment} {vs : List Violation}
    (h : comments s cs = .ok vs) :
    ∃ ws, comments s (cs.map (·.shift k)) = .ok ws ∧
      List.Forall₂ (Violation.Shifted s k) vs ws := by
  induction cs generalizing vs with
  | nil =>
    obtain rfl : vs = [] := (Except.ok.inj h).symm
    exact ⟨[], rfl, .nil⟩
  | cons c cs ih =>
    obtain ⟨first, rest, hfirst, hrest, rfl⟩ := comments_cons_ok.mp h
    obtain ⟨w, hw, hshifted⟩ := violation?_shift (k := k) hfirst
    obtain ⟨ws, hws, hforall⟩ := ih hrest
    exact ⟨w.toList ++ ws, comments_cons_ok.mpr ⟨w, ws, hw, hws, rfl⟩,
      List.rel_append hshifted hforall⟩

theorem isSome_text?_of_code {s : Settings} (hs : Options.inRange s.threshold = true)
    {c : Comment} {i : Nat} {p : Float} (h : (outcome s c).scan.verdict = .code i p) :
    (Message.text? s c.startLine c.endLine (.float p)).isSome = true := by
  obtain ⟨line, rfl, -⟩ := Scan.exists_line_of_code h
  exact Message.isSome_text? (Options.isProbability_of_inRange hs) (isProbability_scoreLine line)
    c.startLine c.endLine

private theorem exists_violation? {s : Settings} (hs : Options.inRange s.threshold = true)
    (c : Comment) : ∃ v, violation? s (outcome s c) = .ok v := by
  cases hverdict : (outcome s c).scan.verdict with
  | code i p =>
    obtain ⟨message, hmessage⟩ := Option.isSome_iff_exists.mp (isSome_text?_of_code hs hverdict)
    exact ⟨_, violation?_of_code hverdict hmessage⟩
  | _ => exact ⟨none, by rw [violation?, hverdict]⟩

theorem exists_comments {s : Settings} (hs : Options.inRange s.threshold = true)
    (cs : List Comment) : ∃ vs, comments s cs = .ok vs := by
  induction cs with
  | nil => exact ⟨[], rfl⟩
  | cons c cs ih =>
    obtain ⟨first, hfirst⟩ := exists_violation? hs c
    obtain ⟨rest, hrest⟩ := ih
    exact ⟨_, comments_cons_ok.mpr ⟨first, rest, hfirst, hrest, rfl⟩⟩

/-! ### Sources -/

variable {parser : Parser} {s : Settings} {text : Text}

theorem source_eq (parser : Parser) (s : Settings) (text : Text) : source parser s text =
    (Comment.extract parser.captures text).mapError .undecodable >>= comments s := by
  rw [source, inspect, Logged.outcome_bind]
  change (Logged.ofExcept _ >>= _).outcome = _
  rw [Logged.outcome_bind]
  rfl

theorem source_of_extract {cs : List Comment} (h : Comment.extract parser.captures text = .ok cs) :
    source parser s text = comments s cs := by
  rw [source_eq, h]
  rfl

/-- Where comments are whole characters a check of a source returns. -/
theorem exists_source (hs : Options.inRange s.threshold = true)
    (h : ∀ c ∈ parser.captures text, c.Cuts text) : ∃ vs, source parser s text = .ok vs := by
  obtain ⟨cs, hcs⟩ := Comment.exists_extract h
  obtain ⟨vs, hvs⟩ := exists_comments hs cs
  exact ⟨vs, (source_of_extract hcs).trans hvs⟩

theorem file_of_read {fs : FileSystem} {p root : Path} {content : Utf8.Bytes}
    (h : fs.read p = .ok content) : file parser fs s p root =
      (do
        let all ← inspect parser s (Source.ofBytes content)
        Logged.tell [.checked (shownPath p root) all.length]
        return ⟨shownPath p root, all, none⟩) := by
  simp only [file, h]

theorem outcome_file_of_read {fs : FileSystem} {p root : Path} {content : Utf8.Bytes}
    (h : fs.read p = .ok content) : (file parser fs s p root).outcome =
      (source parser s (Source.ofBytes content)).map fun vs => ⟨shownPath p root, vs, none⟩ := by
  rw [file_of_read h, Logged.outcome_bind, source]
  rfl

end Check
end CommentedCode
