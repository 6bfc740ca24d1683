import CommentedCode.Decimal.Reading
import CommentedCode.Value.Display
/-!
# Coercion

A value is brought to the kind that a field asks for.  Booleans stand only for themselves; texts
are made from everything else, numbers from numbers and from texts that read as one, lists from
lists, tuples and single texts.
-/
namespace CommentedCode

inductive Kind
  | any
  | bool
  | text
  | int
  | float
  | list (item : Kind)
deriving DecidableEq, Repr

namespace Coercion

/-- Where in the data a value stands: field names and list indexes. -/
abbrev Path := List Text

inductive Failure
  | mistyped (path : Path) (expected got : String)
  | overflow

def bool (path : Path) : Value → Except Failure Bool
  | .bool b => .ok b
  | v => .error (.mistyped path "bool" v.kindName)

def text (path : Path) : Value → Except Failure Text
  | .bool _ => .error (.mistyped path "str" "bool")
  | v => if v.isWritable then .ok v.display else .error (.mistyped path "str" v.kindName)

/-- Bytes as characters; those above ASCII fit no number. -/
def latin (bs : Utf8.Bytes) : Text :=
  bs.map fun b => if b < 0x80 then Char.ofNat b.toNat else '\uFFFD'

/-- The text of a value that may spell a number. -/
def spelling? : Value → Option Text
  | .text cs => some cs
  | .bytes bs => some (latin bs)
  | _ => none

/-- Fractions are cut off; an infinity is too large for every integer. -/
def int (path : Path) : Value → Except Failure Int
  | .int n => .ok n
  | .float x =>
    match Binary.ofFloat x with
    | .infinite _ => .error .overflow
    | b =>
      match b.truncate? with
      | some n => .ok n
      | none => .error (.mistyped path "int" "float")
  | v =>
    match (spelling? v).bind Reading.int? with
    | some n => .ok n
    | none => .error (.mistyped path "int" v.kindName)

def float (path : Path) : Value → Except Failure Float
  | .float x => .ok x
  | .int n =>
    match floatOfInt? n with
    | some x => .ok x
    | none => .error .overflow
  | v =>
    match (spelling? v).bind Reading.float? with
    | some x => .ok x
    | none => .error (.mistyped path "float" v.kindName)

/-- The items that a value stands for where a list is asked. -/
def items? : Value → Option (List Value)
  | .text cs => some [.text cs]
  | .list items => some items
  | .tuple items => some items
  | _ => none

variable {α : Type}

/-- Coerces items in order, the first of which has the index `i`. -/
def each (item : Path → Value → Except Failure α) (path : Path) :
    Nat → List Value → Except Failure (List α)
  | _, [] => .ok []
  | i, v :: vs => do
    let first ← item (path ++ [decimalDigits i]) v
    let rest ← each item path (i + 1) vs
    return first :: rest

def list (item : Path → Value → Except Failure α) (path : Path) (v : Value) :
    Except Failure (List α) :=
  match items? v with
  | some items => each item path 0 items
  | none => .error (.mistyped path "list" v.kindName)

end Coercion

open Coercion in
def coerce : Kind → Coercion.Path → Value → Except Failure Value
  | .any, _, v => .ok v
  | .bool, path, v => (Coercion.bool path v).map .bool
  | .text, path, v => (Coercion.text path v).map .text
  | .int, path, v => (Coercion.int path v).map .int
  | .float, path, v => (Coercion.float path v).map .float
  | .list item, path, v => (Coercion.list (coerce item) path v).map .list

/-- Values that a kind admits. -/
inductive Value.HasKind : Value → Kind → Prop
  | any (v : Value) : HasKind v .any
  | bool (b : Bool) : HasKind (.bool b) .bool
  | text (cs : Text) : HasKind (.text cs) .text
  | int (n : Int) : HasKind (.int n) .int
  | float (x : Float) : HasKind (.float x) .float
  | list {items : List Value} {k : Kind} (h : ∀ v ∈ items, HasKind v k) :
      HasKind (.list items) (.list k)

end CommentedCode
