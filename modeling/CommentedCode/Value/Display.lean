import CommentedCode.Decimal.Basic
import CommentedCode.Decimal.Notation
import CommentedCode.Text.Quoted
import CommentedCode.Value.Basic
/-!
# Values as text

`literal` writes a value so that its kind shows; `display` leaves a text as it is and writes a
date by its digits.  Both are meant for values without integers that are too long to be written.
-/
namespace CommentedCode.Value

open scoped Naturals

/-- Items in brackets, with commas between them. -/
def bracketed (opening closing : Char) (items : List Text) : Text :=
  opening :: Text.join [',', ' '] items ++ [closing]

def padded (width n : Nat) : Text :=
  let digits := decimalDigits n
  zeros (width - digits.length) ++ digits

mutual

def literal : Value → Text
  | .null => "None".toList
  | .bool b => (if b then "True" else "False").toList
  | .int n => intText n
  | .float x => floatText x
  | .text cs => Quoted.ofText cs
  | .bytes bs => Quoted.ofBytes bs
  | .date y m d => "datetime.date".toList ++ bracketed '(' ')' ([y, m, d].map decimalDigits)
  | .list items => bracketed '[' ']' (literals items)
  | .tuple items =>
    match literals items with
    | [item] => '(' :: item ++ [',', ')']
    | parts => bracketed '(' ')' parts
  | .mapping entries => bracketed '\x7b' '\x7d' (entryLiterals entries)

def literals : List Value → List Text
  | [] => []
  | item :: items => literal item :: literals items

def entryLiterals : List (Value × Value) → List Text
  | [] => []
  | (key, value) :: entries =>
    (literal key ++ ':' :: ' ' :: literal value) :: entryLiterals entries

end

theorem literal_tuple (items : List Value) :
    (Value.tuple items).literal =
      match literals items with
      | [item] => '(' :: item ++ [',', ')']
      | parts => bracketed '(' ')' parts := rfl

def display : Value → Text
  | .text cs => cs
  | .date y m d => padded 4 y ++ '-' :: padded 2 m ++ '-' :: padded 2 d
  | value => literal value

mutual

/-- Whether no integer in a value is too long. -/
def isWritable : Value → Bool
  | .int n => n.natAbs < 10 ^ digitLimit
  | .list items => allWritable items
  | .tuple items => allWritable items
  | .mapping entries => entriesWritable entries
  | _ => true

def allWritable : List Value → Bool
  | [] => true
  | item :: items => isWritable item && allWritable items

def entriesWritable : List (Value × Value) → Bool
  | [] => true
  | (key, value) :: entries => isWritable key && isWritable value && entriesWritable entries

end

/-- What is said of an integer that is too long. -/
def tooLong : Text :=
  ("Exceeds the limit (4300 digits) for integer string conversion; " ++
    "use sys.set_int_max_str_digits() to increase the limit").toList

end CommentedCode.Value
