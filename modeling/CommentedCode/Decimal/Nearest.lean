import CommentedCode.Decimal.Basic
/-!
# Nearest floating-point numbers

The floating-point number nearest to a quotient of natural numbers, a tie going to the even
mantissa, computed exactly.
-/
namespace CommentedCode

open scoped Naturals

/-- A quotient rounded to the nearest natural number, a tie to the even one. -/
def divToEven (num den : Nat) : Nat :=
  let floor := num / den
  let rest := num % den
  if 2 * rest < den then floor
  else if den < 2 * rest then floor + 1
  else if floor % 2 = 0 then floor else floor + 1

namespace Nearest

/-- The exponent of the last mantissa bit of `num / den`; never below the smallest one. -/
def place (num den : Nat) : Int :=
  let guess : Int := max ((num.log2 : Int) - den.log2 - 53) (-1074)
  if num * 2 ^ (-guess).toNat < 2 ^ (53 : Nat) * (den * 2 ^ guess.toNat) then guess else guess + 1

/-- The bits of the number nearest to `num / den`; those of infinity if it is too large. -/
def bits (num den : Nat) : Nat :=
  if num = 0 then 0
  else
    let q := place num den
    let m := divToEven (num * 2 ^ (-q).toNat) (den * 2 ^ q.toNat)
    min ((q + 1074).toNat * 2 ^ (52 : Nat) + m) (2047 * 2 ^ (52 : Nat))

def float (negative : Bool) (num den : Nat) : Float :=
  Float.ofBits (UInt64.ofNat (bits num den + if negative then 2 ^ (63 : Nat) else 0))

/-- A power, rounded once; whatever has the exponent zero is one. -/
def power (x : Float) (k : Nat) : Float :=
  match Binary.ofFloat x with
  | .finite negative m e =>
    float (negative && k % 2 == 1) (m ^ k * 2 ^ (e.toNat * k)) (2 ^ ((-e).toNat * k))
  | .infinite negative =>
    if k = 0 then 1.0 else float (negative && k % 2 == 1) (2 ^ (1024 : Nat)) 1
  | .nan => if k = 0 then 1.0 else x

end Nearest

def Decimal.toFloat (d : Decimal) : Float :=
  let size := (decimalDigits d.coefficient).length + d.exponent
  if d.coefficient = 0 ∨ size < -400 then Nearest.float d.negative 0 1
  else if 400 < size then Nearest.float d.negative (2 ^ (1024 : Nat)) 1
  else Nearest.float d.negative d.ratio.1 d.ratio.2

def Numeral.toFloat : Numeral → Float
  | .finite d => d.toFloat
  | .infinite negative => Nearest.float negative (2 ^ (1024 : Nat)) 1
  | .nan => 0.0 / 0.0

/-- The nearest number to an integer, unless that is infinite. -/
def floatOfInt? (n : Int) : Option Float :=
  let x := Nearest.float (n < 0) n.natAbs 1
  if x.isInf then none else some x

end CommentedCode
