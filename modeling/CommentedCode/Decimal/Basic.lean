import CommentedCode.Text.Basic
/-!
# Decimals

A decimal is a sign, a coefficient and a power of ten.  A numeral is a decimal, an infinity or
no number.  Binary floating-point numbers are taken apart exactly.  Powers and sums of natural
numbers have the instances of the core library wherever they are written.
-/
namespace CommentedCode.Naturals

scoped instance (priority := high) power : Pow Nat Nat :=
  instPowNat

scoped instance (priority := high) zero : Zero Nat :=
  Zero.ofOfNat0

end CommentedCode.Naturals

namespace CommentedCode

open scoped Naturals

structure Decimal where
  negative : Bool
  coefficient : Nat
  exponent : Int
deriving DecidableEq, Repr

inductive Numeral
  | finite (value : Decimal)
  | infinite (negative : Bool)
  | nan
deriving DecidableEq, Repr

/-- The digits of a number, the most significant one first. -/
def decimalDigits (n : Nat) : Text :=
  Nat.toDigits 10 n

/-- Integers of more digits are neither read nor written. -/
def digitLimit : Nat :=
  4300

namespace Decimal

def ofInt (n : Int) : Decimal :=
  ⟨n < 0, n.natAbs, 0⟩

/-- `n · 10 ^ e` as a quotient of natural numbers. -/
def ratio (d : Decimal) : Nat × Nat :=
  (d.coefficient * 10 ^ d.exponent.toNat, 10 ^ (-d.exponent).toNat)

end Decimal

/-- A floating-point number as `mantissa · 2 ^ exponent`. -/
inductive Binary
  | finite (negative : Bool) (mantissa : Nat) (exponent : Int)
  | infinite (negative : Bool)
  | nan
deriving DecidableEq, Repr

namespace Binary

def ofBits (bits : Nat) : Binary :=
  let negative := bits / 2 ^ (63 : Nat) % 2 == 1
  let field : Nat := bits / 2 ^ (52 : Nat) % 2 ^ (11 : Nat)
  let fraction : Nat := bits % 2 ^ (52 : Nat)
  if field = 2047 then
    if fraction = 0 then .infinite negative else .nan
  else if field = 0 then .finite negative fraction (-1074)
  else .finite negative (fraction + 2 ^ (52 : Nat)) (field - 1075)

def ofFloat (x : Float) : Binary :=
  ofBits x.toBits.toNat

/-- The integer part; an infinity or no number has none. -/
def truncate? : Binary → Option Int
  | .finite negative m e =>
    let size : Int := (m * 2 ^ e.toNat / 2 ^ (-e).toNat : Nat)
    some (if negative then -size else size)
  | _ => none

end Binary
end CommentedCode
