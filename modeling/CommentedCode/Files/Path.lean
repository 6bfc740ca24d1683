import CommentedCode.Text.Basic
/-!
# Paths

A path as it is written: its anchor, which is empty for a relative path, and its components.
Empty components and single dots are dropped; double dots stay.
-/
namespace CommentedCode

structure Path where
  anchor : Text
  parts : List Text
deriving DecidableEq, Repr

namespace Path

def components (cs : Text) : List Text :=
  (Text.splitOn '/' cs).filter fun part => part ≠ [] && part ≠ ['.']

/-- Exactly two slashes in front are an anchor of their own. -/
def anchorOf : Text → Text
  | '/' :: '/' :: '/' :: _ => ['/']
  | '/' :: '/' :: _ => ['/', '/']
  | '/' :: _ => ['/']
  | _ => []

def ofText (cs : Text) : Path :=
  ⟨anchorOf cs, components cs⟩

def absolute (parts : List Text) : Path :=
  ⟨['/'], parts⟩

def isAbsolute (p : Path) : Bool :=
  p.anchor ≠ []

def joined (parts : List Text) : Text :=
  Text.join ['/'] parts

def text (p : Path) : Text :=
  if p.anchor = [] ∧ p.parts = [] then ['.'] else p.anchor ++ joined p.parts

/-- `p` as seen from `base`. -/
def under (base p : Path) : Path :=
  if p.isAbsolute then p else ⟨base.anchor, base.parts ++ p.parts⟩

/-- Components without double dots, each of which takes back the one before it. -/
def collapsed (parts : List Text) : List Text :=
  parts.foldl (fun above name => if name = ['.', '.'] then above.dropLast else above ++ [name]) []

/-- What follows `base` in the components. -/
def partsAfter? : List Text → List Text → Option (List Text)
  | [], parts => some parts
  | _ :: _, [] => none
  | b :: base, p :: parts => if b = p then partsAfter? base parts else none

/-- `p` relative to `base`, if it lies below it. -/
def relativeTo? (p base : Path) : Option Path :=
  if p.anchor = base.anchor then (partsAfter? base.parts p.parts).map (⟨[], ·⟩) else none

/-- The part of a name from its last dot on; a dot in front or at the end makes none. -/
def suffix (name : Text) : Text :=
  let tail := (name.reverse.takeWhile (· ≠ '.')).reverse
  let dots := name.length - tail.length
  if 1 < dots ∧ tail ≠ [] then '.' :: tail else []

/-- Order by components. -/
def partsBefore (a b : List Text) : Bool :=
  decide (a < b)

end Path
end CommentedCode
