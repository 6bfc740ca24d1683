import CommentedCode.Evidence.Arithmetic
import CommentedCode.Evidence.Measure
/-!
# Evidence

A piece of evidence turns a count `k` into the probability `1 - (1 - weight) ^ k`.  Pieces are
independent signals, so together they give the probability that at least one of them fired.
-/
namespace CommentedCode

structure Evidence (α : Type) where
  name : String
  weight : α
  measure : Text → Nat

namespace Evidence

variable {α : Type}

/-- The probability that none of `count` matches shows code. -/
def silence (A : Arithmetic α) (weight : α) (count : Nat) : α :=
  A.pow (A.complement weight) count

def probability (A : Arithmetic α) (e : Evidence α) (line : Text) : α :=
  A.complement (silence A e.weight (e.measure line))

/-- The probability that at least one signal fired, combined from the left. -/
def noisyOr (A : Arithmetic α) (probabilities : List α) : α :=
  probabilities.foldl
    (fun total p => A.complement (A.mul (A.complement total) (A.complement p))) A.zero

def probabilities (A : Arithmetic α) (table : List (Evidence α)) (line : Text) : List α :=
  table.map (·.probability A line)

def combined (A : Arithmetic α) (table : List (Evidence α)) (line : Text) : α :=
  noisyOr A (probabilities A table line)

/-- The five pieces of evidence, in the order in which they are combined. -/
def standard (A : Arithmetic α) : List (Evidence α) := [
  ⟨"terminator", A.percent 95, Measure.terminator⟩,
  ⟨"logical_operators", A.percent 70, Measure.logicalOperatorCount⟩,
  ⟨"keywords", A.percent 10, Measure.keywordCount⟩,
  ⟨"control_flow", A.percent 95, Measure.controlFlowCount⟩,
  ⟨"camel_case", A.percent 50, Measure.camelCase⟩]

/-- The probability that a line is code. -/
def score (A : Arithmetic α) (line : Text) : α :=
  combined A (standard A) line

/-- Whether a power of finite numbers is too large for double precision. -/
def overflows (e : Evidence Float) (line : Text) : Bool :=
  (Arithmetic.double.complement e.weight).isFinite &&
    (silence Arithmetic.double e.weight (e.measure line)).isInf

/-- The probabilities of a table with any weights, unless a power overflows. -/
def probabilities? (table : List (Evidence Float)) (line : Text) : Option (List Float) :=
  if table.any (·.overflows line) then none else some (probabilities .double table line)

end Evidence
end CommentedCode
