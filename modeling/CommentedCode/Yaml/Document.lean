import CommentedCode.Decimal.Basic
import CommentedCode.Yaml.Node
/-!
# YAML documents

The value that a document stands for.  Merge keys are filled in first; the other keys of a
mapping must differ.
-/
namespace CommentedCode.Yaml

open scoped Naturals

/-- Equality of keys: numbers of all kinds are compared by size. -/
def sameNumber (a b : Value) : Bool :=
  match numeral? a, numeral? b with
  | some x, some y => x == y
  | _, _ => false
where
  /-- A number as a quotient. -/
  numeral? : Value → Option (Int × Nat)
    | .bool b => some (if b then 1 else 0, 1)
    | .int n => some (n, 1)
    | .float x =>
      match Binary.ofFloat x with
      | .finite negative m e =>
        let num := m * 2 ^ e.toNat
        let den := 2 ^ (-e).toNat
        let g := Nat.gcd num den
        let size : Int := (num / g : Nat)
        some (if negative then -size else size, den / g)
      | _ => none
    | _ => none

mutual

def sameKey : Value → Value → Bool
  | .null, .null => true
  | .text a, .text b => a == b
  | .bytes a, .bytes b => a == b
  | .date a b c, .date d e f => a == d && b == e && c == f
  | .tuple as, .tuple bs => sameKeys as bs
  | .float a, .float b => a == b
  | a, b => sameNumber a b

def sameKeys : List Value → List Value → Bool
  | [], [] => true
  | a :: as, b :: bs => sameKey a b && sameKeys as bs
  | _, _ => false

end

mutual

/-- Whether a key can be compared: it holds no list and no mapping. -/
def isHashable : Value → Bool
  | .list _ => false
  | .mapping _ => false
  | .tuple items => areHashable items
  | _ => true

def areHashable : List Value → Bool
  | [] => true
  | v :: vs => isHashable v && areHashable vs

end

/-- A list as a key becomes a tuple. -/
def keyOf : Value → Except Error Value
  | .list items => if areHashable items then .ok (.tuple items) else .error .unhashableKey
  | .mapping _ => .error .malformed
  | v => .ok v

/-- Sets the value of a key, which keeps its place or comes last. -/
def assign (key value : Value) : List (Value × Value) → List (Value × Value)
  | [] => [(key, value)]
  | (k, v) :: rest =>
    if sameKey k key then (k, value) :: rest else (k, v) :: assign key value rest

/-- Entries of a mapping: those that its merge key brings in, and its own. -/
structure Entries where
  merged : List (Value × Value)
  own : List (Value × Value)

/-- Sets keys in order. -/
def assignAll (entries : List (Value × Value)) : List (Value × Value) :=
  entries.foldl (fun all (key, value) => assign key value all) []

/-- The keys of a mapping without a merge key must differ. -/
def Entries.mapping (e : Entries) : Except Error Value :=
  let all := assignAll (e.merged ++ e.own)
  if e.merged.isEmpty && all.length ≠ e.own.length then .error .malformed
  else .ok (.mapping all)

namespace Node

def isMerge : Node → Bool
  | scalar tag _ => tag = Schema.mergeTag
  | _ => false

mutual

def value : Node → Except Error Value
  | scalar tag text => Schema.value tag text
  | sequence tag items =>
    if tag = Schema.sequenceTag then (values items).map .list else .error .malformed
  | mapping tag es =>
    if tag = Schema.mappingTag then entries es >>= Entries.mapping else .error .malformed

def values : List Node → Except Error (List Value)
  | [] => .ok []
  | item :: items => do
    let first ← value item
    let rest ← values items
    return first :: rest

/-- The value of a key; the equals sign stands for itself there. -/
def keyValue : Node → Except Error Value
  | scalar tag text =>
    if tag = Schema.valueTag then .ok (.text text) else Schema.value tag text
  | node => value node >>= keyOf

/-- The entries of a mapping; a second merge key may follow only an empty one. -/
def entries : List (Node × Node) → Except Error Entries
  | [] => .ok ⟨[], []⟩
  | (key, item) :: rest =>
    if key.isMerge then do
      let here ← sources item
      if !here.isEmpty && rest.any (·.1.isMerge) then throw .malformed
      let later ← entries rest
      return { later with merged := here ++ later.merged }
    else do
      let key ← keyValue key
      let item ← value item
      let later ← entries rest
      return { later with own := (key, item) :: later.own }

/-- What a merge key brings in: the entries of a mapping, or of several, the first of which
counts most. -/
def sources : Node → Except Error (List (Value × Value))
  | mapping _ es => (entries es).map fun e => e.merged ++ e.own
  | sequence _ items => allSources items
  | scalar _ _ => .error .malformed

def allSources : List Node → Except Error (List (Value × Value))
  | [] => .ok []
  | mapping _ es :: rest => do
    let here ← entries es
    let later ← allSources rest
    return later ++ here.merged ++ here.own
  | _ :: _ => .error .malformed

end

end Node

/-- The value of a document; an empty one is null. -/
def load (cs : Text) : Except Error Value := do
  match ← Reader.document (← tokens cs) with
  | some node => node.value
  | none => return .null

end CommentedCode.Yaml
