import CommentedCode.Decimal.Notation
import CommentedCode.Text.Quoted
/-!
# JSON text

Data as JSON on one line, with a space behind commas and colons.  Characters above ASCII stand
for themselves.  Integers of too many digits are not written.
-/
namespace CommentedCode

open scoped Naturals

inductive Json
  | null
  | bool (b : Bool)
  | int (n : Int)
  | float (x : Float)
  | text (cs : Text)
  | array (items : List Json)
  | object (members : List (String × Json))

namespace Json

def escape (c : Char) : Text :=
  if c = '"' || c = '\\' then ['\\', c]
  else if c = '\n' then ['\\', 'n']
  else if c = '\r' then ['\\', 'r']
  else if c = '\t' then ['\\', 't']
  else if c = '\x08' then ['\\', 'b']
  else if c = '\x0C' then ['\\', 'f']
  else if c.toNat < 0x20 then '\\' :: 'u' :: Quoted.hexDigits 4 c.toNat
  else [c]

def quoted (cs : Text) : Text :=
  '"' :: cs.flatMap escape ++ ['"']

def numeralText : Numeral → Text
  | .finite d => d.text
  | .infinite negative => (if negative then "-Infinity" else "Infinity").toList
  | .nan => "NaN".toList

mutual

def render : Json → Text
  | null => "null".toList
  | bool b => (if b then "true" else "false").toList
  | int n => intText n
  | float x => numeralText (.ofFloat x)
  | text cs => quoted cs
  | array items => '[' :: Text.join [',', ' '] (renderAll items) ++ [']']
  | object members => '\x7b' :: Text.join [',', ' '] (renderMembers members) ++ ['\x7d']

def renderAll : List Json → List Text
  | [] => []
  | item :: items => render item :: renderAll items

def renderMembers : List (String × Json) → List Text
  | [] => []
  | (name, item) :: members =>
    (quoted name.toList ++ ':' :: ' ' :: render item) :: renderMembers members

end

mutual

/-- Whether no integer has too many digits. -/
def isWritable : Json → Bool
  | int n => n.natAbs < 10 ^ digitLimit
  | array items => allWritable items
  | object members => membersWritable members
  | _ => true

def allWritable : List Json → Bool
  | [] => true
  | item :: items => isWritable item && allWritable items

def membersWritable : List (String × Json) → Bool
  | [] => true
  | (_, item) :: members => isWritable item && membersWritable members

end

/-- The text, if it can be written. -/
def written? (j : Json) : Option Text :=
  if j.isWritable then some j.render else none

def option {α : Type} (encode : α → Json) : Option α → Json
  | some a => encode a
  | none => null

def texts (items : List Text) : Json :=
  array (items.map text)

end Json
end CommentedCode
