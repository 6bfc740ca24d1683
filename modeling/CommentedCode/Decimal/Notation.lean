import CommentedCode.Decimal.Shortest
/-!
# Decimal notation

A decimal is written with a point and at least one digit on either side of it when its first
digit stands between the fourth place behind the point and the sixteenth before it, and in
scientific notation, with a signed exponent of at least two digits, elsewhere.
-/
namespace CommentedCode

def zeros (n : Nat) : Text :=
  List.replicate n '0'

namespace Decimal

/-- Digits with the point behind the first `point` of them. -/
def positional (digits : Text) (point : Int) : Text :=
  if point ≤ 0 then '0' :: '.' :: zeros (-point).toNat ++ digits
  else if (digits.length : Int) ≤ point then
    digits ++ zeros (point - digits.length).toNat ++ ['.', '0']
  else digits.take point.toNat ++ '.' :: digits.drop point.toNat

def scientific (digits : Text) (exponent : Int) : Text :=
  let mantissa := match digits with
    | d :: e :: rest => d :: '.' :: e :: rest
    | short => short
  let size := decimalDigits exponent.natAbs
  mantissa ++ 'e' :: (if exponent < 0 then '-' else '+') :: zeros (2 - size.length) ++ size

def text (d : Decimal) : Text :=
  let digits := decimalDigits d.coefficient
  let point := d.exponent + digits.length
  let size :=
    if d.coefficient = 0 then ['0', '.', '0']
    else if -4 < point ∧ point ≤ 16 then positional digits point
    else scientific digits (point - 1)
  if d.negative then '-' :: size else size

end Decimal

def Numeral.text : Numeral → Text
  | .finite d => d.text
  | .infinite negative => (if negative then "-inf" else "inf").toList
  | .nan => "nan".toList

/-- The shortest text that reads back as `x`. -/
def floatText (x : Float) : Text :=
  (Numeral.ofFloat x).text

def intText (n : Int) : Text :=
  if n < 0 then '-' :: decimalDigits n.natAbs else decimalDigits n.natAbs

end CommentedCode
