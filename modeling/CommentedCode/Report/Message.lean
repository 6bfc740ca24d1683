import CommentedCode.Decimal.Notation
import CommentedCode.Decimal.TwoPlaces
import CommentedCode.Settings.Basic
/-!
# Violation messages

The text of a violation: where it is, how probable, and how the check can be adjusted.  The
probability and the threshold are given to two places.
-/
namespace CommentedCode

/-- The number that a value stands for; a boolean is none. -/
def Value.numeral? : Value → Option Numeral
  | .int n => some (.finite (.ofInt n))
  | .float x => some (.ofFloat x)
  | _ => none

def Value.twoPlaces? (v : Value) : Option Text :=
  v.numeral?.bind Numeral.twoPlaces?

namespace Message

def place (startLine endLine : Int) : Text :=
  if startLine = endLine then "Line ".toList ++ intText startLine
  else "Lines from ".toList ++ intText startLine ++ " to ".toList ++ intText endLine

/-- The message around the two numbers. -/
def compose (s : Settings) (startLine endLine : Int) (probability threshold : Text) : Text :=
  s.message ++ ' ' :: place startLine endLine ++
    " classified as commented out java code with a probability of ".toList ++ probability ++
    ". (TIP: you can adjust classificationTreshold property (actual is ".toList ++ threshold ++
    ") or use skipCheckSequence (actual is ".toList ++ s.skipSequence ++ ")).".toList

/-- The message, unless a number has no two places. -/
def text? (s : Settings) (startLine endLine : Int) (probability : Value) : Option Text := do
  let shown ← probability.twoPlaces?
  let threshold ← (Value.float s.threshold).twoPlaces?
  return compose s startLine endLine shown threshold

end Message
end CommentedCode
