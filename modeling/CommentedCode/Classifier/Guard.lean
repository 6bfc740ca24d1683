import CommentedCode.Text.Character
/-!
# Guards

Two kinds of lines keep a comment from being classified: the opener of a documentation comment,
and a line that begins with the skip sequence behind a comment marker.
-/
namespace CommentedCode.Guard

def lacksLineFeed (cs : Text) : Bool :=
  cs.all (· ≠ '\n')

/-- Blanks, `/**`, and anything else on the line. -/
def isJavadocOpener (line : Text) : Bool :=
  (Text.after? ['/', '*', '*'] (line.dropWhile Text.isIndent)).any lacksLineFeed

def opensJavadoc (lines : List Text) : Bool :=
  lines.head?.any isJavadocOpener

/-- The sequence and anything else on the line. -/
def isMarked (sequence cs : Text) : Bool :=
  (Text.after? sequence cs).any lacksLineFeed

/-- Some of the blanks in front, and then the sequence. -/
def isMarkedBehindBlanks (sequence : Text) : Text → Bool
  | [] => isMarked sequence []
  | c :: cs =>
    isMarked sequence (c :: cs) || (Text.isIndent c && isMarkedBehindBlanks sequence cs)

/-- Some of the stars in front, then blanks and the sequence. -/
def isMarkedBehindStars (sequence : Text) : Text → Bool
  | [] => isMarkedBehindBlanks sequence []
  | c :: cs =>
    isMarkedBehindBlanks sequence (c :: cs) || (c == '*' && isMarkedBehindStars sequence cs)

/-- A comment marker with blanks around it, followed by the sequence. -/
def isSkipLine (sequence line : Text) : Bool :=
  match line.dropWhile Text.isIndent with
  | '/' :: '/' :: cs => isMarkedBehindBlanks sequence cs
  | '/' :: '*' :: cs => isMarkedBehindStars sequence cs
  | _ => false

end CommentedCode.Guard
