import CommentedCode.Text.Utf8
/-!
# Values

Plain data as configuration files and callers give it.  The entries of a mapping keep their
order.
-/
namespace CommentedCode

inductive Value
  | null
  | bool (b : Bool)
  | int (n : Int)
  | float (x : Float)
  | text (cs : Text)
  | bytes (bs : Utf8.Bytes)
  | date (year month day : Nat)
  | list (items : List Value)
  | tuple (items : List Value)
  | mapping (entries : List (Value × Value))
deriving Inhabited

/-- The word for a kind of value in messages. -/
def Value.kindName : Value → String
  | .null => "NoneType"
  | .bool _ => "bool"
  | .int _ => "int"
  | .float _ => "float"
  | .text _ => "str"
  | .bytes _ => "bytes"
  | .date _ _ _ => "date"
  | .list _ => "list"
  | .tuple _ => "tuple"
  | .mapping _ => "dict"

/-- Whether a value counts as yes: it is not empty, not zero, not null and not false. -/
def Value.isSomething : Value → Bool
  | .null => false
  | .bool b => b
  | .int n => n != 0
  | .float x => x != 0.0
  | .text cs => !cs.isEmpty
  | .bytes bs => !bs.isEmpty
  | .date _ _ _ => true
  | .list items => !items.isEmpty
  | .tuple items => !items.isEmpty
  | .mapping entries => !entries.isEmpty

end CommentedCode
