import CommentedCode.Decimal.Nearest
/-!
# Arithmetic on probabilities

The few operations that scores are made of.  They may be exact or rounded; programs run with
double precision.
-/
namespace CommentedCode

structure Arithmetic (α : Type) where
  zero : α
  one : α
  sub : α → α → α
  mul : α → α → α
  pow : α → Nat → α
  percent : Nat → α

namespace Arithmetic

variable {α : Type}

/-- The probability that an event with probability `p` does not happen. -/
def complement (A : Arithmetic α) (p : α) : α :=
  A.sub A.one p

def double : Arithmetic Float where
  zero := 0.0
  one := 1.0
  sub := (· - ·)
  mul := (· * ·)
  pow := Nearest.power
  percent n := Nearest.float false n 100

end Arithmetic
end CommentedCode
