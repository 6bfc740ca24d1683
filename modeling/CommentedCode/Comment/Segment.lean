import CommentedCode.Text.Basic
/-!
# Segments of a source

A source is cut into comments, literals and other characters.  A literal is a text block, a
string or a character; a backslash in it takes the next character along.  A line comment ends
before a line feed, a block comment with the first `*/` behind its opener.  The texts of the
segments, put together, are the source.
-/
namespace CommentedCode

inductive Segment
  | comment (text : Text)
  | literal (text : Text)
  | other (c : Char)
deriving DecidableEq, Repr

namespace Segment

def text : Segment → Text
  | comment cs => cs
  | literal cs => cs
  | other c => [c]

/-- The part up to and including the closing quote, and the rest; all of an open literal. -/
def spanQuote (quote : Char) : Text → Text × Text
  | [] => ([], [])
  | '\\' :: c :: cs => let (body, rest) := spanQuote quote cs; ('\\' :: c :: body, rest)
  | c :: cs =>
    if c = quote then ([c], cs)
    else let (body, rest) := spanQuote quote cs; (c :: body, rest)

/-- The part up to and including three double quotes, and the rest; all of an open text
block. -/
def spanBlock : Text → Text × Text
  | [] => ([], [])
  | '\\' :: c :: cs => let (body, rest) := spanBlock cs; ('\\' :: c :: body, rest)
  | '"' :: '"' :: '"' :: cs => (['"', '"', '"'], cs)
  | c :: cs => let (body, rest) := spanBlock cs; (c :: body, rest)

/-- The part up to and including `*/`, and the rest, if there is an end. -/
def spanComment? : Text → Option (Text × Text)
  | [] => none
  | '*' :: '/' :: cs => some (['*', '/'], cs)
  | c :: cs => (spanComment? cs).map fun (body, rest) => (c :: body, rest)

/-- The part before the next line feed, and the rest. -/
def spanLine (cs : Text) : Text × Text :=
  (cs.takeWhile (· ≠ '\n'), cs.dropWhile (· ≠ '\n'))

/-- The segment that begins with `c`, and the rest. -/
def next (c : Char) (cs : Text) : Segment × Text :=
  match c, cs with
  | '"', '"' :: '"' :: cs =>
    let (body, rest) := spanBlock cs
    (literal ('"' :: '"' :: '"' :: body), rest)
  | '"', cs =>
    let (body, rest) := spanQuote '"' cs
    (literal ('"' :: body), rest)
  | '\'', cs =>
    let (body, rest) := spanQuote '\'' cs
    (literal ('\'' :: body), rest)
  | '/', '/' :: cs =>
    let (body, rest) := spanLine cs
    (comment ('/' :: '/' :: body), rest)
  | '/', '*' :: cs =>
    match spanComment? cs with
    | some (body, rest) => (comment ('/' :: '*' :: body), rest)
    | none => (other '/', '*' :: cs)
  | c, cs => (other c, cs)

theorem spanQuote_append (quote : Char) (cs : Text) :
    (spanQuote quote cs).1 ++ (spanQuote quote cs).2 = cs := by
  fun_induction spanQuote quote cs <;> simp_all

theorem spanBlock_append (cs : Text) : (spanBlock cs).1 ++ (spanBlock cs).2 = cs := by
  fun_induction spanBlock cs <;> simp_all

theorem spanComment?_append {cs body rest : Text} (h : spanComment? cs = some (body, rest)) :
    body ++ rest = cs := by
  fun_induction spanComment? cs generalizing body rest with
  | case1 => simp at h
  | case2 cs =>
    simp only [Option.some.injEq, Prod.mk.injEq] at h
    simp [← h.1, h.2]
  | case3 c cs _ ih =>
    obtain ⟨⟨b, r⟩, hs, heq⟩ := Option.map_eq_some_iff.1 h
    simp only [Prod.mk.injEq] at heq
    obtain ⟨rfl, rfl⟩ := heq
    simp [ih hs]

theorem spanLine_append (cs : Text) : (spanLine cs).1 ++ (spanLine cs).2 = cs :=
  List.takeWhile_append_dropWhile

theorem next_append (c : Char) (cs : Text) : (next c cs).1.text ++ (next c cs).2 = c :: cs := by
  unfold next
  split
  · simp [text, spanBlock_append]
  · simp [text, spanQuote_append]
  · simp [text, spanQuote_append]
  · simp [text, spanLine_append]
  · split
    · rename_i h
      simp [text, spanComment?_append h]
    · simp [text]
  · simp [text]

theorem text_next_ne_nil (c : Char) (cs : Text) : (next c cs).1.text ≠ [] := by
  unfold next
  split
  · simp [text]
  · simp [text]
  · simp [text]
  · simp [text]
  · split <;> simp [text]
  · simp [text]

theorem length_next_lt (c : Char) (cs : Text) : (next c cs).2.length < (c :: cs).length := by
  have h := congrArg List.length (next_append c cs)
  have hp := List.length_pos_iff.2 (text_next_ne_nil c cs)
  simp only [List.length_append] at h
  omega

/-- The segments of a source in order. -/
def all : Text → List Segment
  | [] => []
  | c :: cs => (next c cs).1 :: all (next c cs).2
termination_by cs => cs.length
decreasing_by exact length_next_lt c cs

end Segment

end CommentedCode
