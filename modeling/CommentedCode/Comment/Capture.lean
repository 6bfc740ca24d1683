import CommentedCode.Comment.Segment
import CommentedCode.Text.Utf8
/-!
# Comments

A comment is a slice of a source, delimiters included, with the numbers of the lines on which it
starts and ends.  A parser reports the comments of a source by their positions in its UTF-8 bytes;
lines are the rows of these positions, counted from one.
-/
namespace CommentedCode

structure Comment where
  text : Text
  startLine : Int
  endLine : Int
deriving DecidableEq, Repr

namespace Comment

def isSingleLine (c : Comment) : Bool :=
  c.startLine == c.endLine

/-- A text on its own as a comment that starts on a given line. -/
def ofText (text : Text) (startLine : Int) : Comment :=
  ⟨text, startLine, startLine + max 1 (Text.splitLines text).length - 1⟩

end Comment

/-- A place between two bytes of a source; `column` counts the bytes since the last line feed. -/
structure Position where
  byte : Nat
  row : Nat
  column : Nat
deriving DecidableEq, Repr

namespace Position

def start : Position :=
  ⟨0, 0, 0⟩

def next (p : Position) (c : Char) : Position :=
  if c = '\n' then ⟨p.byte + 1, p.row + 1, 0⟩
  else ⟨p.byte + c.utf8Size, p.row, p.column + c.utf8Size⟩

/-- The position behind a text. -/
def advance (p : Position) (cs : Text) : Position :=
  cs.foldl next p

end Position

/-- Where a comment starts and stops. -/
structure Capture where
  start : Position
  stop : Position
deriving DecidableEq, Repr

namespace Capture

/-- The last row of a capture: one that stops in the first column stops before that row. -/
def lastRow (c : Capture) : Nat :=
  if c.start.row < c.stop.row ∧ c.stop.column = 0 then c.stop.row - 1 else c.stop.row

/-- The captures of the comments among segments, the first of which starts at `p`. -/
def ofSegments (p : Position) : List Segment → List Capture
  | [] => []
  | s :: rest =>
    let q := p.advance s.text
    match s with
    | .comment _ => ⟨p, q⟩ :: ofSegments q rest
    | _ => ofSegments q rest

/-- What a parser reports that follows the segments. -/
def scan (source : Text) : List Capture :=
  ofSegments .start (Segment.all source)

end Capture

/-- What a parser reports of a source: its comments, in any order, and if the source is not
well-formed, how many parts of it are errors. -/
structure Parser where
  captures : Text → List Capture
  errors? : Text → Option Nat

namespace Parser

/-- The parser that only follows the segments; to it every source is well-formed. -/
def lexical : Parser :=
  ⟨Capture.scan, fun _ => none⟩

end Parser

namespace Comment

/-- The comment that a capture marks. -/
def ofCapture? (bs : Utf8.Bytes) (c : Capture) : Except Utf8.Error Comment :=
  (Utf8.decode? ((bs.drop c.start.byte).take (c.stop.byte - c.start.byte))).map fun text =>
    ⟨text, c.start.row + 1, c.lastRow + 1⟩

/-- The comments that a parser reports, by their first bytes. -/
def extract (parse : Text → List Capture) (source : Text) : Except Utf8.Error (List Comment) :=
  ((parse source).mergeSort fun a b => a.start.byte ≤ b.start.byte).mapM
    (ofCapture? (Utf8.encode source))

/-- The comments of a source in order. -/
def ofSource (source : Text) : List Comment :=
  match extract Capture.scan source with
  | .ok comments => comments
  | .error _ => []

end Comment
end CommentedCode
