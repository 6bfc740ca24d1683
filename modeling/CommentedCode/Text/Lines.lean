import CommentedCode.Text.Basic
/-!
# Lines

`splitLines` breaks a text at `\r\n`, `\r` and `\n`; `unifyBreaks` turns these three into `\n`;
`splitAtBreaks` breaks at every character that ends a line anywhere.
-/
namespace CommentedCode.Text

/-- Puts `c` in front of the first line. -/
def consLine (c : Char) : List Text → List Text
  | [] => [[c]]
  | line :: lines => (c :: line) :: lines

def breakLines : Text → List Text
  | [] => [[]]
  | '\r' :: '\n' :: cs => [] :: breakLines cs
  | c :: cs => if c = '\r' ∨ c = '\n' then [] :: breakLines cs else consLine c (breakLines cs)

/-- The lines of a text; an empty text has none. -/
def splitLines : Text → List Text
  | [] => []
  | c :: cs => breakLines (c :: cs)

def unifyBreaks : Text → Text
  | [] => []
  | '\r' :: '\n' :: cs => '\n' :: unifyBreaks cs
  | c :: cs => (if c = '\r' then '\n' else c) :: unifyBreaks cs

/-- Line and paragraph separators, the vertical controls, and the three separators below the
space. -/
def isLineEnd (c : Char) : Bool :=
  let n := c.toNat
  (0xA ≤ n && n ≤ 0xD) || (0x1C ≤ n && n ≤ 0x1E) || n == 0x85 || n == 0x2028 || n == 0x2029

/-- Lines of a text in which every line is ended: what follows the last end is a line only if
it is not empty. -/
def splitAtBreaks : Text → List Text
  | [] => []
  | '\r' :: '\n' :: cs => [] :: splitAtBreaks cs
  | c :: cs => if isLineEnd c then [] :: splitAtBreaks cs else consLine c (splitAtBreaks cs)

end CommentedCode.Text
