import CommentedCode.Decimal.Basic
/-!
# Shortest decimals

The decimal with the fewest digits among those that round to a given floating-point number, and
of these the nearest one.  All arithmetic is on natural numbers.

A number `m · 2 ^ q` is written `value / unit`; the decimals that round to it lie between
`below / unit` and `above / unit`, the ends included iff `m` is even.
-/
namespace CommentedCode.Shortest

open scoped Naturals

structure Interval where
  below : Nat
  value : Nat
  above : Nat
  unit : Nat
  closed : Bool

/-- The rounding interval of `m · 2 ^ q`.  Below a power of two the neighbour is half as far, but
not at the smallest exponent. -/
def interval (m : Nat) (q : Int) : Interval :=
  let scale := 2 ^ (q - 2).toNat
  let gap := if m = 2 ^ (52 : Nat) ∧ q ≠ -1074 then 1 else 2
  { below := (4 * m - gap) * scale
    value := 4 * m * scale
    above := (4 * m + 2) * scale
    unit := 2 ^ (2 - q).toNat
    closed := m % 2 == 0 }

/-- How often `value` must be multiplied by ten to reach `unit`, at most `bound` times. -/
def shortfall (unit : Nat) : Nat → Nat → Nat
  | 0, _ => 0
  | bound + 1, value => if unit ≤ value then 0 else 1 + shortfall unit bound (10 * value)

/-- The number of digits before the point; not positive for a fraction that starts with zeros. -/
def magnitude (i : Interval) : Int :=
  if i.unit ≤ i.value then (decimalDigits (i.value / i.unit)).length
  else 1 - (shortfall i.unit 400 i.value : Int)

/-- The better of the two neighbours of the value on the grid `10 ^ place`, if one lies in the
interval. -/
def onGrid (i : Interval) (place : Int) : Option Nat :=
  let up := 10 ^ place.toNat * i.unit
  let down := 10 ^ (-place).toNat
  let inside (n : Nat) : Bool :=
    if i.closed then i.below * down ≤ n * up && n * up ≤ i.above * down
    else i.below * down < n * up && n * up < i.above * down
  let floor := i.value * down / up
  let toFloor := i.value * down - floor * up
  let toNext := (floor + 1) * up - i.value * down
  match inside floor, inside (floor + 1) with
  | false, false => none
  | true, false => some floor
  | false, true => some (floor + 1)
  | true, true =>
    if toFloor < toNext then some floor
    else if toNext < toFloor then some (floor + 1)
    else some (if floor % 2 = 0 then floor else floor + 1)

/-- Tries the grids of `count`, `count + 1`, … digits, `bound` of them. -/
def search (i : Interval) (size : Int) : Nat → Nat → Nat × Int
  | 0, count => (i.value * 10 ^ (count - size).toNat / (10 ^ (size - count).toNat * i.unit),
      size - count)
  | bound + 1, count =>
    match onGrid i (size - count) with
    | some n => (n, size - count)
    | none => search i size bound (count + 1)

/-- Drops zeros at the end, at most `bound` of them. -/
def dropZeros : Nat → Nat → Int → Nat × Int
  | 0, n, place => (n, place)
  | bound + 1, n, place =>
    if n ≠ 0 ∧ n % 10 = 0 then dropZeros bound (n / 10) (place + 1) else (n, place)

/-- The shortest decimal for `m · 2 ^ q`; seventeen digits are always enough. -/
def digits (m : Nat) (q : Int) : Nat × Int :=
  if m = 0 then (0, 0)
  else
    let i := interval m q
    let found := search i (magnitude i) 17 1
    dropZeros 17 found.1 found.2

end Shortest

namespace Numeral

def ofBinary : Binary → Numeral
  | .finite negative m q => .finite ⟨negative, (Shortest.digits m q).1, (Shortest.digits m q).2⟩
  | .infinite negative => .infinite negative
  | .nan => .nan

/-- The shortest numeral that reads back as `x`. -/
def ofFloat (x : Float) : Numeral :=
  ofBinary (.ofFloat x)

end CommentedCode.Numeral
