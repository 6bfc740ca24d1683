import CommentedCode.Ignore.Pattern
import CommentedCode.Text.Character
/-!
# Ignore rules

A list of patterns decides about a path by the last one that matches, where a match that names
the path or an ancestor as a file outranks one that names a directory.
-/
namespace CommentedCode.Ignore

abbrev Rules := List Pattern

namespace Rules

/-- The lines that hold patterns, without the blanks around them. -/
def patternLines (lines : List Text) : List Text :=
  (lines.map Text.trim).filter fun line => line ≠ [] && line.head? ≠ some '#'

def readAll : List Text → Except PatternError Rules
  | [] => .ok []
  | line :: lines => do
    let first ← Pattern.read? line
    let rest ← readAll lines
    return first.toList ++ rest

/-- The rules in `lines`, if there are any patterns. -/
def ofLines? (lines : List Text) : Except PatternError (Option Rules) :=
  let patterns := patternLines lines
  if patterns = [] then .ok none else (readAll patterns).map some

/-- The path without one slash, or dot and slash, in front. -/
def normalPath : Text → Text
  | '/' :: cs => cs
  | '.' :: '/' :: cs => cs
  | cs => cs

/-- The patterns that match, the last one first, each with the mark of its match. -/
def hits (rules : Rules) (path : Text) : List (Pattern × Bool) :=
  rules.reverse.filterMap fun p => (p.shape.match? (normalPath path)).map (p, ·)

def ignores (rules : Rules) (path : Text) : Bool :=
  let found := hits rules path
  match (found.find? (!·.2)).or found.head? with
  | some (pattern, _) => pattern.ignores
  | none => false

end Rules
end CommentedCode.Ignore
