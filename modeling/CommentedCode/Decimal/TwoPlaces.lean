import CommentedCode.Decimal.Basic
import CommentedCode.Decimal.Shortest
/-!
# Two places

A decimal rounded to two places, halves away from zero.  The sign stays, also on a zero, and a
result of more than twenty-eight digits is refused.
-/
namespace CommentedCode

open scoped Naturals

/-- A quotient rounded to the nearest natural number, a tie upwards. -/
def divHalfUp (num den : Nat) : Nat :=
  (2 * num + den) / (2 * den)

namespace Decimal

def digitBound : Nat :=
  28

/-- The size in hundredths. -/
def hundredths (d : Decimal) : Nat :=
  let e := d.exponent + 2
  divHalfUp (d.coefficient * 10 ^ e.toNat) (10 ^ (-e).toNat)

/-- A number of hundredths with its point. -/
def centText (n : Nat) : Text :=
  let cents := n % 100
  decimalDigits (n / 100) ++ ['.'] ++ decimalDigits (cents / 10) ++ decimalDigits (cents % 10)

def twoPlaces? (d : Decimal) : Option Text :=
  let size := d.hundredths
  if digitBound < (decimalDigits size).length then none
  else some (if d.negative then '-' :: centText size else centText size)

end Decimal

/-- An infinity has no two places; no number stays none. -/
def Numeral.twoPlaces? : Numeral → Option Text
  | .finite d => d.twoPlaces?
  | .infinite _ => none
  | .nan => some "NaN".toList

end CommentedCode
