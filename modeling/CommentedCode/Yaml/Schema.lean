import CommentedCode.Decimal.Reading
import CommentedCode.Text.Quoted
import CommentedCode.Value.Basic
import CommentedCode.Yaml.Input
/-!
# YAML schema

The types of scalars.  A plain scalar is a boolean, a number, a null, a date or a merge key if
it reads as one, and a text otherwise.
-/
namespace CommentedCode.Yaml.Schema

def core (name : String) : Text :=
  ("tag:yaml.org,2002:" ++ name).toList

def nullTag : Text := core "null"
def boolTag : Text := core "bool"
def intTag : Text := core "int"
def floatTag : Text := core "float"
def textTag : Text := core "str"
def binaryTag : Text := core "binary"
def dateTag : Text := core "timestamp"
def mergeTag : Text := core "merge"
def valueTag : Text := core "value"
def sequenceTag : Text := core "seq"
def mappingTag : Text := core "map"

def isWord (words : List String) (cs : Text) : Bool :=
  words.any (·.toList = cs)

def unsigned : Text → Text
  | '+' :: cs => cs
  | '-' :: cs => cs
  | cs => cs

def isDigitOrLow (c : Char) : Bool :=
  c.isDigit || c == '_'

/-- At least one character, all of the class. -/
def isAll (p : Char → Bool) (cs : Text) : Bool :=
  !cs.isEmpty && cs.all p

/-- An exponent with digits; its sign may be missing if `signless`. -/
def isExponent (signless : Bool) : Text → Bool
  | c :: cs =>
    (c == 'e' || c == 'E') &&
      match cs with
      | '+' :: ds => isAll Char.isDigit ds
      | '-' :: ds => isAll Char.isDigit ds
      | ds => signless && isAll Char.isDigit ds
  | [] => false

def isFloat (cs : Text) : Bool :=
  let body := unsigned cs
  let whole := body.takeWhile isDigitOrLow
  let rest := body.dropWhile isDigitOrLow
  let startsWithDigit := whole.head?.any Char.isDigit
  match rest with
  | '.' :: more =>
    let fraction := more.takeWhile isDigitOrLow
    let tail := more.dropWhile isDigitOrLow
    (startsWithDigit && (tail.isEmpty || isExponent true tail)) ||
      (whole.isEmpty && !fraction.isEmpty && (tail.isEmpty || isExponent false tail)) ||
      (whole.isEmpty && isWord ["inf", "Inf", "INF"] more) ||
      (body == cs && whole.isEmpty && isWord ["nan", "NaN", "NAN"] more)
  | rest => startsWithDigit && isExponent true rest

def isInt (cs : Text) : Bool :=
  match unsigned cs with
  | '0' :: 'b' :: ds => isAll (fun c => c == '0' || c == '1' || c == '_') ds
  | '0' :: 'o' :: ds => isAll (fun c => ('0' ≤ c && c ≤ '7') || c == '_') ds
  | '0' :: 'x' :: ds => isAll (fun c => (hexLike c) || c == '_') ds
  | ds => isAll isDigitOrLow ds
where
  hexLike (c : Char) : Bool :=
    c.isDigit || ('a' ≤ c && c ≤ 'f') || ('A' ≤ c && c ≤ 'F')

/-- Four digits, two and two, with dashes between. -/
def dateParts? : Text → Option (Nat × Nat × Nat)
  | [a, b, c, d, '-', e, f, '-', g, h] =>
    if [a, b, c, d, e, f, g, h].all Char.isDigit then
      some (Reading.digitsValue 10 [a, b, c, d], Reading.digitsValue 10 [e, f],
        Reading.digitsValue 10 [g, h])
    else none
  | _ => none

/-- The tag of a plain scalar.  Numbers begin with a sign, a digit or a point. -/
def tagOf (cs : Text) : Text :=
  let startsLikeNumber := cs.head?.any fun c => c.isDigit || c == '+' || c == '-'
  if isWord ["true", "True", "TRUE", "false", "False", "FALSE"] cs then boolTag
  else if isFloat cs then floatTag
  else if startsLikeNumber && isInt cs then intTag
  else if cs = ['<', '<'] then mergeTag
  else if isWord ["", "~", "null", "Null", "NULL"] cs then nullTag
  else if (dateParts? cs).isSome then dateTag
  else if cs = ['='] then valueTag
  else textTag

def boolWords : List (String × Bool) :=
  [("yes", true), ("no", false), ("true", true), ("false", false), ("on", true), ("off", false)]

def bool (cs : Text) : Except Error Value :=
  match boolWords.find? fun (word, _) => word.toList = cs.map Char.toLower with
  | some (_, b) => .ok (.bool b)
  | none => .error .unknownWord

def withoutLows (cs : Text) : Text :=
  cs.filter (· ≠ '_')

def notAnInt (base : Nat) (cs : Text) : Error :=
  .badScalar ("invalid literal for int() with base ".toList ++ decimalDigits base ++
    ": ".toList ++ Quoted.ofText cs)

def digitIn? (base : Nat) (c : Char) : Option Nat :=
  let n := if c.isDigit then c.toNat - '0'.toNat
    else if 'a' ≤ c && c ≤ 'z' then c.toNat - 'a'.toNat + 10
    else if 'A' ≤ c && c ≤ 'Z' then c.toNat - 'A'.toNat + 10
    else base
  if n < base then some n else none

def intIn (base : Nat) (cs : Text) : Except Error Int :=
  match cs.foldlM (fun n c => (digitIn? base c).map (n * base + ·)) 0 with
  | some n => if cs = [] then .error (notAnInt base cs) else .ok n
  | none => .error (notAnInt base cs)

def int (cs : Text) : Except Error Value :=
  match withoutLows cs with
  | [] => .error .emptyScalar
  | written => do
    let body := unsigned written
    let size ← match body with
      | '0' :: 'b' :: ds => intIn 2 ds
      | '0' :: 'x' :: ds => intIn 16 ds
      | '0' :: 'o' :: ds => intIn 8 ds
      | ds =>
        match Reading.int? ds with
        | some n => pure n
        | none => throw (notAnInt 10 ds)
    return .int (if written.head? = some '-' then -size else size)

def float (cs : Text) : Except Error Value :=
  match (withoutLows cs).map Char.toLower with
  | [] => .error .emptyScalar
  | written =>
    let body := unsigned written
    let size : Except Error Float :=
      if body = ".inf".toList then .ok (Numeral.toFloat (.infinite false))
      else if body = ".nan".toList then .ok (Numeral.toFloat .nan)
      else
        match Reading.float? body with
        | some x => .ok x
        | none => .error (.badScalar (Reading.notAFloat body))
    size.map fun x => .float (if written.head? = some '-' then -x else x)

def isLeap (year : Nat) : Bool :=
  (year % 4 == 0 && year % 100 != 0) || year % 400 == 0

def daysIn (year month : Nat) : Nat :=
  if month = 2 then (if isLeap year then 29 else 28)
  else if [4, 6, 9, 11].contains month then 30
  else 31

def date (cs : Text) : Except Error Value :=
  match dateParts? cs with
  | none => .error .malformed
  | some (year, month, day) =>
    if year = 0 then .error (.badScalar "year 0 is out of range".toList)
    else if month = 0 ∨ 12 < month then .error (.badScalar "month must be in 1..12".toList)
    else if day = 0 ∨ daysIn year month < day then
      .error (.badScalar "day is out of range for month".toList)
    else .ok (.date year month day)

def sextet? (c : Char) : Option Nat :=
  if 'A' ≤ c && c ≤ 'Z' then some (c.toNat - 'A'.toNat)
  else if 'a' ≤ c && c ≤ 'z' then some (c.toNat - 'a'.toNat + 26)
  else if c.isDigit then some (c.toNat - '0'.toNat + 52)
  else if c = '+' then some 62
  else if c = '/' then some 63
  else none

/-- Bytes written six bits to a character; `held` bits of `rest` wait for more.  Other
characters are passed over, and padding ends the text once it completes a group of four. -/
def base64From (place pads rest : Nat) : Text → Option Utf8.Bytes
  | [] => if place = 0 then some [] else none
  | c :: cs =>
    if c = '=' then
      if 2 ≤ place ∧ 4 ≤ place + pads + 1 then some []
      else base64From place (if 2 ≤ place then pads + 1 else pads) rest cs
    else
      match sextet? c with
      | none => base64From place pads rest cs
      | some n =>
        if place = 0 then base64From 1 0 n cs
        else if place = 1 then
          (base64From 2 0 (n % 16) cs).map (UInt8.ofNat (rest * 4 + n / 16) :: ·)
        else if place = 2 then
          (base64From 3 0 (n % 4) cs).map (UInt8.ofNat (rest * 16 + n / 4) :: ·)
        else (base64From 0 0 0 cs).map (UInt8.ofNat (rest * 64 + n) :: ·)

def binary (cs : Text) : Except Error Value :=
  if !cs.all (·.toNat < 0x80) then .error .malformed
  else
    match base64From 0 0 0 cs with
    | some bytes => .ok (.bytes bytes)
    | none => .error .malformed

/-- The value of a scalar of a given type. -/
def value (tag text : Text) : Except Error Value :=
  if tag = nullTag then .ok .null
  else if tag = boolTag then bool text
  else if tag = intTag then int text
  else if tag = floatTag then float text
  else if tag = textTag then .ok (.text text)
  else if tag = binaryTag then binary text
  else if tag = dateTag then date text
  else .error .malformed

end CommentedCode.Yaml.Schema
