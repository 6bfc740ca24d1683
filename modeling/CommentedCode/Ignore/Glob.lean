import CommentedCode.Text.Basic
/-!
# Globs

The wildcards of one segment of an ignore pattern: `*` and `?` stay within a path component, a
bracket lists characters and ranges, a backslash takes the next character as it is.
-/
namespace CommentedCode.Ignore

inductive Glyph
  | char (c : Char)
  | one
  | run
  /-- At least one character. -/
  | someRun
  | set (negated : Bool) (ranges : List (Char × Char))
deriving DecidableEq, Repr

/-- An open bracket makes a pattern void, a backslash at the end makes it an error. -/
inductive GlobFault
  | openBracket
  | danglingEscape
deriving DecidableEq, Repr

/-- The characters and ranges between brackets. -/
def ranges : Text → List (Char × Char)
  | a :: '-' :: b :: cs => (a, b) :: ranges cs
  | a :: cs => (a, a) :: ranges cs
  | [] => []

/-- What a bracket holds and what follows it; a closing bracket in the first place is an item. -/
def bracket? (cs : Text) : Option (Text × Text) :=
  let (lead, cs) := match cs with
    | ']' :: cs => ([']'], cs)
    | cs => ([], cs)
  match cs.dropWhile (· ≠ ']') with
  | [] => none
  | _ :: rest => some (lead ++ cs.takeWhile (· ≠ ']'), rest)

theorem bracket?_length {cs body rest : Text} (h : bracket? cs = some (body, rest)) :
    rest.length < cs.length := by
  have key (ds : Text) (r : Text) (c : Char) (hd : ds.dropWhile (· ≠ ']') = c :: r) :
      r.length < ds.length := by
    have h := congrArg List.length (List.takeWhile_append_dropWhile (p := (· ≠ ']')) (l := ds))
    rw [hd] at h
    simp only [List.length_append, List.length_cons] at h
    omega
  unfold bracket? at h
  split at h
  rename_i lead ds heq
  split at heq
  · simp only [Prod.mk.injEq] at heq
    obtain ⟨-, rfl⟩ := heq
    split at h
    · simp at h
    · rename_i hd
      simp only [Option.some.injEq, Prod.mk.injEq] at h
      have := key _ _ _ hd
      rw [← h.2]
      simp only [List.length_cons]
      omega
  · simp only [Prod.mk.injEq] at heq
    obtain ⟨-, rfl⟩ := heq
    split at h
    · simp at h
    · rename_i hd
      simp only [Option.some.injEq, Prod.mk.injEq] at h
      rw [← h.2]
      exact key _ _ _ hd

/-- A bracket without its sign of negation. -/
def negation : Text → Bool × Text
  | '!' :: cs => (true, cs)
  | '^' :: cs => (true, cs)
  | cs => (false, cs)

theorem negation_length (cs : Text) : (negation cs).2.length ≤ cs.length := by
  unfold negation
  split <;> simp

def glyphs : Text → Except GlobFault (List Glyph)
  | [] => .ok []
  | '\\' :: c :: cs => (glyphs cs).map (.char c :: ·)
  | '\\' :: [] => .error .danglingEscape
  | '*' :: cs => (glyphs cs).map (.run :: ·)
  | '?' :: cs => (glyphs cs).map (.one :: ·)
  | '[' :: cs =>
    match _h : bracket? (negation cs).2 with
    | none => .error .openBracket
    | some (body, rest) => (glyphs rest).map (.set (negation cs).1 (ranges body) :: ·)
  | c :: cs => (glyphs cs).map (.char c :: ·)
termination_by cs => cs.length
decreasing_by
  all_goals simp only [List.length_cons]
  all_goals try omega
  have h1 := bracket?_length _h
  have h2 := negation_length cs
  omega

namespace Glyph

def inRange (c : Char) (range : Char × Char) : Bool :=
  range.1 ≤ c && c ≤ range.2

/-- Ranges whose ends are in the wrong order. -/
def isBroken : Glyph → Bool
  | set _ ranges => ranges.any fun (a, b) => b < a
  | _ => false

end Glyph

/-- What is left behind a run of characters other than `stop`, the longest run first. -/
def restsUpTo (stop : Char) : Text → List Text
  | [] => [[]]
  | c :: cs => if c = stop then [c :: cs] else restsUpTo stop cs ++ [c :: cs]

/-- What can be left behind a glyph, in the order in which it is tried. -/
def Glyph.rests : Glyph → Text → List Text
  | char d, c :: cs => if c = d then [cs] else []
  | one, c :: cs => if c = '/' then [] else [cs]
  | run, cs => restsUpTo '/' cs
  | someRun, c :: cs => if c = '/' then [] else restsUpTo '/' cs
  | set negated ranges, c :: cs => if ranges.any (inRange c) != negated then [cs] else []
  | _, [] => []

end CommentedCode.Ignore
