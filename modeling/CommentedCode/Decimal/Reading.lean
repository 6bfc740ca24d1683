import CommentedCode.Decimal.Nearest
import CommentedCode.Text.Character
import CommentedCode.Text.Quoted
/-!
# Reading numbers

Integers and floating-point numbers as people write them: blanks around, a sign, digits of any
script, single underscores between digits.
-/
namespace CommentedCode.Reading

/-- Blanks that may stand around a number: the separators below the space may not. -/
def isPadding (c : Char) : Bool :=
  Text.isBlank c && !(0x1C ≤ c.toNat && c.toNat ≤ 0x1F)

/-- Writes the digits of all scripts as ASCII ones. -/
def plainDigit (c : Char) : Char :=
  match Text.digitValue? c with
  | some n => Char.ofNat ('0'.toNat + n)
  | none => c

/-- The text between the blanks, in plain digits. -/
def body (cs : Text) : Text :=
  (Text.dropLastWhile isPadding (cs.dropWhile isPadding)).map plainDigit

def sign : Text → Bool × Text
  | '-' :: cs => (true, cs)
  | '+' :: cs => (false, cs)
  | cs => (false, cs)

def digitsValue (base : Nat) (digits : Text) : Nat :=
  digits.foldl (fun n c => n * base + c.toNat - '0'.toNat) 0

/-- Drops underscores that stand between two digits and refuses others; `previous` tells whether
a digit went before. -/
def joinDigits : Bool → Text → Option Text
  | _, [] => some []
  | previous, c :: cs =>
    if c = '_' then
      if previous && cs.head?.any Char.isDigit then joinDigits false cs else none
    else (joinDigits c.isDigit cs).map (c :: ·)

def int? (cs : Text) : Option Int :=
  let (negative, rest) := sign (body cs)
  match joinDigits false rest with
  | some digits =>
    if digits ≠ [] && digits.all Char.isDigit && digits.length ≤ digitLimit then
      let n : Int := digitsValue 10 digits
      some (if negative then -n else n)
    else none
  | none => none

/-- Text behind the mantissa: nothing, or an exponent. -/
def exponent? : Text → Option Int
  | [] => some 0
  | c :: cs =>
    if c = 'e' || c = 'E' then
      let (negative, digits) := sign cs
      if digits ≠ [] && digits.all Char.isDigit then
        let n : Int := digitsValue 10 digits
        some (if negative then -n else n)
      else none
    else none

/-- An unsigned decimal: digits with at most one point among them, at least one digit. -/
def decimal? (negative : Bool) (cs : Text) : Option Decimal :=
  let whole := cs.takeWhile Char.isDigit
  let rest := cs.dropWhile Char.isDigit
  let fraction := match rest with
    | '.' :: more => more.takeWhile Char.isDigit
    | _ => []
  let rest := match rest with
    | '.' :: more => more.dropWhile Char.isDigit
    | other => other
  if whole = [] ∧ fraction = [] then none
  else
    (exponent? rest).map fun e =>
      ⟨negative, digitsValue 10 (whole ++ fraction), e - fraction.length⟩

def asciiLower (cs : Text) : Text :=
  cs.map Char.toLower

def numeral? (cs : Text) : Option Numeral :=
  match joinDigits false (body cs) with
  | none => none
  | some cs =>
    let (negative, rest) := sign cs
    let word := asciiLower rest
    if word = "inf".toList ∨ word = "infinity".toList then some (.infinite negative)
    else if word = "nan".toList then some .nan
    else (decimal? negative rest).map .finite

def float? (cs : Text) : Option Float :=
  (numeral? cs).map (·.toFloat)

/-- The message about a text that `float?` refuses. -/
def notAFloat (cs : Text) : Text :=
  "could not convert string to float: ".toList ++ Quoted.ofText cs

end CommentedCode.Reading
