import CommentedCode.Text.Basic
/-!
# YAML input

The characters of a document with their positions.  A null character, which no document may
hold, ends the input, so that there is always a next character.
-/
namespace CommentedCode.Yaml

/-- A character and where it stands: lines and columns count from zero. -/
structure Spot where
  char : Char
  index : Nat
  line : Nat
  column : Nat
deriving Repr

abbrev Input := List Spot

def endMark : Char :=
  '\x00'

def isBreak (c : Char) : Bool :=
  c == '\n' || c == '\r' || c == '\x85' || c == '\u2028' || c == '\u2029'

/-- A line break or the end. -/
def isBreakOrEnd (c : Char) : Bool :=
  isBreak c || c == endMark

/-- What ends a comment: the separators of lines and paragraphs do not. -/
def endsLine (c : Char) : Bool :=
  c == '\n' || c == '\r' || c == '\x85' || c == endMark

/-- What sets an indicator apart. -/
def endsWord (c : Char) : Bool :=
  endsLine c || c == ' ' || c == '\t'

def isGap (c : Char) : Bool :=
  c == ' ' || c == '\t'

/-- Characters that may stand in a document. -/
def isAllowed (c : Char) : Bool :=
  let n := c.toNat
  n == 0x9 || n == 0xA || n == 0xD || (0x20 ≤ n && n ≤ 0x7E) || n == 0x85 ||
    (0xA0 ≤ n && n ≤ 0xD7FF) || (0xE000 ≤ n && n ≤ 0xFFFD) || 0x10000 ≤ n

/-- Whether the next line begins behind `c`. -/
def breaksBefore (c : Char) (rest : Text) : Bool :=
  if c = '\r' then rest.head? ≠ some '\n' else isBreak c

/-- A byte order mark takes no column. -/
def spotsFrom (index line column : Nat) : Text → Input
  | [] => [⟨endMark, index, line, column⟩]
  | c :: cs =>
    ⟨c, index, line, column⟩ ::
      if breaksBefore c cs then spotsFrom (index + 1) (line + 1) 0 cs
      else spotsFrom (index + 1) line (if c = '\uFEFF' then column else column + 1) cs

namespace Input

def ofText (cs : Text) : Input :=
  spotsFrom 0 0 0 cs

/-- The character `n` places ahead. -/
def ahead (n : Nat) (input : Input) : Char :=
  (input[n]?.map (·.char)).getD endMark

def next (input : Input) : Char :=
  input.ahead 0

def here (input : Input) : Spot :=
  input.head?.getD ⟨endMark, 0, 0, 0⟩

def column (input : Input) : Nat :=
  input.here.column

def line (input : Input) : Nat :=
  input.here.line

def takeWhile (p : Char → Bool) (input : Input) : Text :=
  (List.takeWhile (fun s : Spot => p s.char) input).map (·.char)

def dropWhile (p : Char → Bool) (input : Input) : Input :=
  List.dropWhile (fun s : Spot => p s.char) input

def take (n : Nat) (input : Input) : Text :=
  (List.take n input).map (·.char)

def drop (n : Nat) (input : Input) : Input :=
  List.drop n input

/-- The line break at the front as a line feed, unless it is a separator, and what follows. -/
def lineBreak (input : Input) : Text × Input :=
  let c := input.next
  if c = '\r' ∧ input.ahead 1 = '\n' then (['\n'], input.drop 2)
  else if c = '\n' ∨ c = '\r' ∨ c = '\x85' then (['\n'], input.drop 1)
  else if c = '\u2028' ∨ c = '\u2029' then ([c], input.drop 1)
  else ([], input)

/-- Three dashes or three dots that stand for themselves. -/
def isMarker (c : Char) (input : Input) : Bool :=
  input.take 3 = [c, c, c] && endsWord (input.ahead 3)

def isDocumentMarker (input : Input) : Bool :=
  input.isMarker '-' || input.isMarker '.'

end Input

/-- Why a document cannot be read. -/
inductive Error
  /-- It is no YAML, or no single document of known types. -/
  | malformed
  /-- A scalar does not fit its type. -/
  | badScalar (reason : Text)
  /-- A scalar of a type that is never empty is empty. -/
  | emptyScalar
  /-- A boolean is none of the known words. -/
  | unknownWord
  /-- A key that cannot be compared. -/
  | unhashableKey

end CommentedCode.Yaml
