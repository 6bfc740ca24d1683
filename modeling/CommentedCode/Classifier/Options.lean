import CommentedCode.Value.Coercion
/-!
# Classifier options

A threshold above zero and at most one, a skip sequence that is not empty, and whether
documentation comments are left alone.
-/
namespace CommentedCode

structure Options (α : Type) where
  threshold : α
  skipSequence : Text
  skipJavadocs : Bool

namespace Options

def defaultThreshold : Float :=
  0.85

def defaultSkipSequence : Text :=
  "cmt".toList

def default : Options Float :=
  ⟨defaultThreshold, defaultSkipSequence, true⟩

inductive Error
  | threshold (shown : Text)
  | emptySkipSequence
  | mistyped

def Error.message? : Error → Option Text
  | .threshold shown => some ("threshold must be in (0, 1], got ".toList ++ shown)
  | .emptySkipSequence => some "skip_sequence must not be empty".toList
  | .mistyped => none

def inRange (threshold : Float) : Bool :=
  0.0 < threshold && threshold ≤ 1.0

def checkThreshold (threshold : Float) (shown : Text) : Except Error Float :=
  if inRange threshold then .ok threshold else .error (.threshold shown)

def checkSequence (sequence : Text) : Except Error Text :=
  if sequence = [] then .error .emptySkipSequence else .ok sequence

def checked (o : Options Float) : Except Error (Options Float) := do
  let t ← checkThreshold o.threshold (floatText o.threshold)
  let s ← checkSequence o.skipSequence
  return ⟨t, s, o.skipJavadocs⟩

/-- A threshold given as a number of either kind; of the integers only one is in range. -/
def thresholdOf : Value → Except Error Float
  | .float x => checkThreshold x (floatText x)
  | .int n => if n = 1 then .ok 1.0 else .error (.threshold (intText n))
  | .bool b => if b then .ok 1.0 else .error (.threshold "False".toList)
  | _ => .error .mistyped

def sequenceOf : Value → Except Error Text
  | .text cs => checkSequence cs
  | v => if v.isSomething then .error .mistyped else .error .emptySkipSequence

/-- Options given as plain data; absent ones are the defaults. -/
def ofValues (threshold skipSequence skipJavadocs : Option Value) :
    Except Error (Options Float) := do
  let t ← (threshold.map thresholdOf).getD (.ok defaultThreshold)
  let s ← (skipSequence.map sequenceOf).getD (.ok defaultSkipSequence)
  return ⟨t, s, (skipJavadocs.map Value.isSomething).getD true⟩

end Options
end CommentedCode
