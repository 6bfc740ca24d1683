import CommentedCode.Ignore.Glob
/-!
# Ignore patterns

A pattern is read from one line.  It matches the beginning of a path; a match that ends with the
slash of a directory is marked, because it decides less than one that names a file.
-/
namespace CommentedCode.Ignore

inductive PatternError
  | noSegments
  | danglingEscape
  | brokenRange
deriving DecidableEq, Repr

inductive Token
  /-- Any leading components. -/
  | lead
  /-- A slash and any components between two segments. -/
  | between
  | slash
  /-- The slash of a directory. -/
  | markedSlash
  | glyph (g : Glyph)
  /-- The slash of a directory, or the end. -/
  | finish
deriving DecidableEq, Repr

inductive Shape
  /-- Every path, unless it holds nothing but line feeds. -/
  | everything
  /-- Whatever lies in a directory. -/
  | nested (marked : Bool)
  | anchored (tokens : List Token)
deriving DecidableEq, Repr

structure Pattern where
  ignores : Bool
  shape : Shape
deriving DecidableEq, Repr

def doubleStar : Text :=
  ['*', '*']

def segmentGlyphs (segment : Text) : Except GlobFault (List Token) :=
  if segment = ['*'] then .ok [.glyph .someRun]
  else (glyphs segment).map (·.map .glyph)

/-- The tokens of the segments; `first` tells whether none went before, `joined` whether a slash
is due. -/
def tokens (isDirectory : Bool) : Bool → Bool → List Text → Except GlobFault (List Token)
  | _, _, [] => .ok []
  | first, joined, segment :: rest =>
    if segment = doubleStar then
      if first then (tokens isDirectory false false rest).map (.lead :: ·)
      else if rest = [] then .ok [if isDirectory then .markedSlash else .slash]
      else (tokens isDirectory false true rest).map (.between :: ·)
    else do
      let here ← segmentGlyphs segment
      let later ← if rest = [] then .ok [.finish] else tokens isDirectory false true rest
      return (if joined then [.slash] else []) ++ here ++ later

/-- Without the slash in front; a single segment may stand in any directory. -/
def anchor : List Text → List Text
  | [] :: rest => rest
  | [segment] => if segment = doubleStar then [segment] else [doubleStar, segment]
  | [segment, []] => if segment = doubleStar then [segment, []] else [doubleStar, segment, []]
  | segments => segments

/-- A slash at the end stands for everything below. -/
def openEnd : List Text → List Text
  | [] => []
  | [[]] => [doubleStar]
  | segment :: rest => segment :: openEnd rest

def collapse : List Text → List Text
  | [] => []
  | segment :: rest =>
    match collapse rest with
    | next :: later =>
      if segment = doubleStar ∧ next = doubleStar then next :: later
      else segment :: next :: later
    | [] => [segment]

def shapeOf (isDirectory : Bool) (segments : List Text) : Except GlobFault Shape :=
  if segments = [doubleStar] then .ok (if isDirectory then .nested true else .everything)
  else if segments = [doubleStar, ['*']] then .ok .everything
  else if segments = [doubleStar, ['*'], doubleStar] then .ok (.nested isDirectory)
  else (tokens isDirectory true false segments).map .anchored

def Shape.isBroken : Shape → Bool
  | anchored tokens => tokens.any fun
    | .glyph g => g.isBroken
    | _ => false
  | _ => false

namespace Pattern

/-- Reads a line; a void pattern is none. -/
def read? (line : Text) : Except PatternError (Option Pattern) :=
  if line = ['/'] then .ok none
  else
    let (ignores, body) := match line with
      | '!' :: cs => (false, cs)
      | cs => (true, cs)
    let written := Text.splitOn '/' body
    let isDirectory := written.getLast? = some []
    match collapse (openEnd (anchor written)) with
    | [] => .error .noSegments
    | segments =>
      match shapeOf isDirectory segments with
      | .error .openBracket => .ok none
      | .error .danglingEscape => .error .danglingEscape
      | .ok shape => if shape.isBroken then .error .brokenRange else .ok (some ⟨ignores, shape⟩)

end Pattern

/-- What is left behind a run that ends with a slash, the longest run first; `started` tells
whether the run holds a character already. -/
def leadRests : Bool → Text → List Text
  | _, [] => []
  | started, c :: cs =>
    (if c = '\n' then [] else leadRests true cs) ++ (if started && c = '/' then [cs] else [])

/-- What is left behind a slash and at least one character, none of them a line feed. -/
def betweenRests : Text → List Text
  | '/' :: c :: cs => if c = '\n' then [] else restsUpTo '\n' cs
  | _ => []

/-- The first way in which the tokens match a path from its beginning: whether the match ends
with the slash of a directory. -/
def matchTokens : List Token → Text → Option Bool
  | [], _ => some false
  | .lead :: rest, cs => (leadRests false cs ++ [cs]).findSome? (matchTokens rest)
  | .between :: rest, cs => (betweenRests cs ++ [cs]).findSome? (matchTokens rest)
  | .slash :: rest, cs =>
    match cs with
    | '/' :: cs => matchTokens rest cs
    | _ => none
  | .markedSlash :: rest, cs =>
    match cs with
    | '/' :: cs => (matchTokens rest cs).map fun _ => true
    | _ => none
  | .glyph g :: rest, cs => (g.rests cs).findSome? (matchTokens rest)
  | .finish :: _, cs =>
    match cs with
    | '/' :: _ => some true
    | [] => some false
    | ['\n'] => some false
    | _ => none

def Shape.match? : Shape → Text → Option Bool
  | everything, cs => if cs.any (· ≠ '\n') then some false else none
  | nested marked, cs => if cs.contains '/' then some marked else none
  | anchored tokens, cs => matchTokens tokens cs

end CommentedCode.Ignore
