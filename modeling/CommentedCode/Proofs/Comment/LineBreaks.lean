import CommentedCode.Proofs.Comment.Numbering
import CommentedCode.Proofs.Text.LineBreaks
import Mathlib.Data.List.Forall2
/-!
# Comments with other line breaks

With a carriage return before every line feed a source has its comments on the same lines.  A
line comment takes along the carriage return of the break behind it; that of another break stands
in a literal, in a block comment, or on its own.
-/
namespace CommentedCode

open Text (crlf)

/-- `d` is the comment `c` with the other line breaks, perhaps with half of the one behind it. -/
structure Comment.Rebroken (c d : Comment) : Prop where
  startLine : d.startLine = c.startLine
  endLine : d.endLine = c.endLine
  text : d.text = crlf c.text ∨ d.text = crlf c.text ++ ['\r']
  ne_nil : c.text ≠ []
  noReturn : '\r' ∉ c.text

theorem QuoteBody.crlf {quote : Char} (hr : quote ≠ '\r') (hn : quote ≠ '\n') {body : Text}
    (h : QuoteBody quote body) : QuoteBody quote (crlf body) := by
  induction h with
  | close =>
    rw [Text.crlf_cons hn]
    exact .close
  | @escape cs c _ ih =>
    rw [Text.crlf_cons (by decide)]
    by_cases hc : c = '\n'
    · subst hc
      exact .escape '\r' (.char (by decide) (Ne.symm hn) ih)
    · rw [Text.crlf_cons hc]
      exact .escape c ih
  | @char c cs hb hq _ ih =>
    by_cases hc : c = '\n'
    · subst hc
      exact .char (by decide) (Ne.symm hr) (.char hb hq ih)
    · rw [Text.crlf_cons hc]
      exact .char hb hq ih

theorem BlockBody.crlf {body : Text} (h : BlockBody body) : BlockBody (crlf body) := by
  induction h with
  | close => exact .close
  | @escape cs c _ ih =>
    rw [Text.crlf_cons (by decide)]
    by_cases hc : c = '\n'
    · subst hc
      exact .escape '\r' (.char (by decide) (by simp) ih)
    · rw [Text.crlf_cons hc]
      exact .escape c ih
  | @char c cs hb hquotes _ ih =>
    by_cases hc : c = '\n'
    · subst hc
      exact .char (by decide) (by simp) (.char hb (by simp) ih)
    · have hkept : ¬['"', '"', '"'] <+: Text.crlf (c :: cs) :=
        fun h => hquotes (Text.prefix_of_prefix_crlf (by decide) h)
      rw [Text.crlf_cons hc] at hkept ⊢
      exact .char hb hkept ih

/-- `target` is a source that has the comments of `segs`, with the other line breaks. -/
def Rewritten (segs : List Segment) (target : Text) : Prop :=
  ∃ more, Segmented more target ∧ ∀ line,
    List.Forall₂ Comment.Rebroken (Comment.numbered line segs) (Comment.numbered line more)

private theorem count_of_text {text other : Text}
    (h : other = crlf text ∨ other = crlf text ++ ['\r']) :
    List.count '\n' other = List.count '\n' text := by
  rcases h with rfl | rfl
  · exact Text.count_crlf text
  · rw [List.count_append, Text.count_crlf]
    rfl

private theorem rebroken_of_text {text other : Text} (line : Int) (hne : text ≠ [])
    (hr : '\r' ∉ text) (h : other = crlf text ∨ other = crlf text ++ ['\r']) :
    List.Forall₂ Comment.Rebroken (Comment.onLine? line (.comment text)).toList
      (Comment.onLine? line (.comment other)).toList := by
  refine .cons ⟨rfl, ?_, h, hne, hr⟩ .nil
  dsimp only
  rw [count_of_text h]

namespace Rewritten

variable {segs : List Segment} {mid : Text}

private theorem cons {s : Segment} {front : List Segment} {target rest : Text}
    (hcut : Cut front target rest)
    (hcount : List.count '\n' (front.flatMap Segment.text) = List.count '\n' s.text)
    (hfront : ∀ line, List.Forall₂ Comment.Rebroken (Comment.onLine? line s).toList
      (Comment.numbered line front))
    (hrest : Rewritten segs rest) : Rewritten (s :: segs) target := by
  obtain ⟨more, hmore, hcomments⟩ := hrest
  refine ⟨front ++ more, hcut.append hmore, fun line => ?_⟩
  rw [Comment.numbered_append, hcount, Comment.numbered]
  exact List.rel_append (hfront line) (hcomments _)

private theorem cons_one {s t : Segment} {rest : Text} (hbegins : Begins t rest)
    (htext : t.text = crlf s.text)
    (hcomment : ∀ line, List.Forall₂ Comment.Rebroken (Comment.onLine? line s).toList
      (Comment.onLine? line t).toList)
    (hrest : Rewritten segs rest) : Rewritten (s :: segs) (crlf s.text ++ rest) := by
  have hcut : Cut [t] (crlf s.text ++ rest) rest := by
    rw [← htext]
    exact .cons hbegins .nil
  refine cons hcut ?_ (fun line => ?_) hrest
  · rw [List.flatMap_singleton, htext, Text.count_crlf]
  · rw [Comment.numbered, Comment.numbered, List.append_nil]
    exact hcomment line

private theorem cons_line (hrest : Rewritten segs (crlf mid)) :
    Rewritten (.other '\n' :: segs) ('\n' :: crlf mid) := by
  have hlf : Begins (.other '\n') (crlf mid) :=
    .other (by decide) (by decide) (by simp [OpensComment])
  exact cons (.cons hlf .nil) rfl (fun _ => .nil) hrest

private theorem cons_other {c : Char} (h : Begins (.other c) mid)
    (hrest : Rewritten segs (crlf mid)) :
    Rewritten (.other c :: segs) (crlf [c] ++ crlf mid) := by
  cases h with
  | other hd hq hopen =>
    by_cases hc : c = '\n'
    · subst hc
      have hcr : Begins (.other '\r') ('\n' :: crlf mid) :=
        .other (by decide) (by decide) (by simp [OpensComment])
      have hlf : Begins (.other '\n') (crlf mid) :=
        .other (by decide) (by decide) (by simp [OpensComment])
      have hcut : Cut [.other '\r', .other '\n'] ('\r' :: '\n' :: crlf mid) (crlf mid) :=
        .cons hcr (.cons hlf .nil)
      exact cons hcut rfl (fun _ => .nil) hrest
    · have htext : (Segment.other c).text = crlf [c] := (Text.crlf_cons hc []).symm
      refine cons_one (.other hd hq ?_) htext (fun _ => .nil) hrest
      rw [← Text.crlf_cons hc]
      rintro (h | h)
      · exact hopen (.inl (Text.prefix_of_prefix_crlf (by decide) h))
      · exact hopen (.inr (Text.prefix_of_prefix_crlf (by decide) h))

private theorem cons_blockComment {body : Text} (hfirst : ¬['*', '/'] <:+: body ++ ['*'])
    (hr : '\r' ∉ '/' :: '*' :: (body ++ ['*', '/'])) (hrest : Rewritten segs (crlf mid)) :
    Rewritten (.comment ('/' :: '*' :: (body ++ ['*', '/'])) :: segs)
      (crlf ('/' :: '*' :: (body ++ ['*', '/'])) ++ crlf mid) := by
  have hkept : ¬['*', '/'] <:+: crlf body ++ ['*'] := fun h => by
    rw [show ['*'] = crlf ['*'] from rfl, ← Text.crlf_append] at h
    exact hfirst (Text.infix_of_infix_crlf (by decide) (by decide) h)
  have htext : (Segment.comment ('/' :: '*' :: (crlf body ++ ['*', '/']))).text =
      crlf ('/' :: '*' :: (body ++ ['*', '/'])) := by
    rw [Text.crlf_cons (by decide), Text.crlf_cons (by decide), Text.crlf_append]
    rfl
  exact cons_one (.blockComment hkept) htext
    (fun line => rebroken_of_text line (by simp) hr (.inl htext)) hrest

/-- The carriage return behind a line comment belongs to it, so the rest starts with the line
feed. -/
private theorem cons_lineComment {body : Text} (hbody : '\n' ∉ body)
    (hhead : ∀ c ∈ mid.head?, c = '\n') (hr : '\r' ∉ '/' :: '/' :: body)
    (hrest : Rewritten segs (crlf mid))
    (hbreak : ∀ rest, mid = '\n' :: rest → Rewritten segs ('\n' :: crlf rest)) :
    Rewritten (.comment ('/' :: '/' :: body) :: segs)
      (crlf ('/' :: '/' :: body) ++ crlf mid) := by
  have hline : '\n' ∉ '/' :: '/' :: body := by simpa using hbody
  have hkept : crlf ('/' :: '/' :: body) = '/' :: '/' :: body :=
    Text.withBreaks_of_not_mem _ hline
  cases mid with
  | nil =>
    exact cons_one (.lineComment hbody nofun) hkept.symm
      (fun line => rebroken_of_text line (by simp) hr (.inl hkept.symm)) hrest
  | cons c mid =>
    obtain rfl : c = '\n' := hhead c rfl
    have hbegins : Begins (.comment ('/' :: '/' :: (body ++ ['\r']))) ('\n' :: crlf mid) :=
      .lineComment (by simpa using hbody) (by simp)
    have htext : '/' :: '/' :: (body ++ ['\r']) = crlf ('/' :: '/' :: body) ++ ['\r'] := by
      rw [hkept]
      rfl
    have hcut : Cut [.comment ('/' :: '/' :: (body ++ ['\r']))]
        (crlf ('/' :: '/' :: body) ++ crlf ('\n' :: mid)) ('\n' :: crlf mid) := by
      rw [Text.crlf_cons_line, List.append_cons (crlf _), ← htext]
      exact .cons hbegins .nil
    refine cons hcut ?_ (fun line => ?_) (hbreak mid rfl)
    · rw [List.flatMap_singleton]
      exact count_of_text (.inr htext)
    · exact rebroken_of_text line (by simp) hr (.inr htext)

private theorem step {s : Segment} (h : Begins s mid) (hr : '\r' ∉ s.text)
    (hrest : Rewritten segs (crlf mid))
    (hbreak : ∀ rest, mid = '\n' :: rest → Rewritten segs ('\n' :: crlf rest)) :
    Rewritten (s :: segs) (crlf s.text ++ crlf mid) := by
  cases h with
  | block hbody => exact cons_one (.block hbody.crlf) rfl (fun _ => .nil) hrest
  | string hbody hquotes =>
    refine cons_one (.string (hbody.crlf (by decide) (by decide)) ?_) rfl (fun _ => .nil) hrest
    rw [← Text.crlf_append]
    exact fun h => hquotes (Text.prefix_of_prefix_crlf (by decide) h)
  | char hbody =>
    exact cons_one (.char (hbody.crlf (by decide) (by decide))) rfl (fun _ => .nil) hrest
  | lineComment hbody hhead => exact cons_lineComment hbody hhead hr hrest hbreak
  | blockComment hfirst => exact cons_blockComment hfirst hr hrest
  | other hd hq hopen => exact cons_other (.other hd hq hopen) hrest

end Rewritten

/-- A source without carriage returns is rewritten, as a whole and, where it begins with a line
feed, from that line feed on. -/
theorem Segmented.rewritten {segs : List Segment} {source : Text} (h : Segmented segs source)
    (hr : '\r' ∉ source) :
    Rewritten segs (crlf source) ∧
      ∀ rest, source = '\n' :: rest → Rewritten segs ('\n' :: crlf rest) := by
  rw [Segmented] at h
  generalize hend : ([] : Text) = tail at h
  induction h with
  | nil =>
    subst hend
    exact ⟨⟨[], .nil, fun _ => .nil⟩, nofun⟩
  | @cons s segs mid tail hs _ ih =>
    rw [List.mem_append, not_or] at hr
    obtain ⟨hrest, hbreak⟩ := ih hr.2 hend
    constructor
    · rw [Text.crlf_append]
      exact .step hs hr.1 hrest hbreak
    · intro rest heq
      cases hs with
      | other _ _ _ =>
        obtain ⟨rfl, rfl⟩ := List.cons.inj heq
        exact .cons_line hrest
      | _ => simp [Segment.text] at heq

theorem Comment.ofSource_crlf {source : Text} (h : Terminated source) (hr : '\r' ∉ source) :
    Terminated (crlf source) ∧
      List.Forall₂ Comment.Rebroken (ofSource source) (ofSource (crlf source)) := by
  obtain ⟨more, hmore, hcomments⟩ := (h.segmented.rewritten hr).1
  refine ⟨terminated_iff.mpr ⟨more, hmore⟩, ?_⟩
  rw [ofSource_eq_numbered, ofSource_eq_numbered, ← hmore.eq_all]
  exact hcomments 1

end CommentedCode
