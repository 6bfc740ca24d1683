import CommentedCode.Classifier.Guard
import CommentedCode.Classifier.Options
import CommentedCode.Comment.Capture
import CommentedCode.Evidence.Basic
/-!
# Classifier

A comment is code as soon as one of its lines reaches the threshold, unless a skip line comes
first or the comment is a documentation comment.  The scorer is a parameter, and the result
tells which lines it was asked about.
-/
namespace CommentedCode

inductive Verdict (α : Type)
  /-- A documentation comment, left alone. -/
  | javadoc
  /-- A skip line at this index ended the search. -/
  | skipped (index : Nat)
  /-- The first line that reached the threshold, and its score. -/
  | code (index : Nat) (probability : α)
  | prose
deriving Repr

/-- A verdict and the lines that were scored for it, in order. -/
structure Scan (α : Type) where
  verdict : Verdict α
  scored : List Text
deriving Repr

namespace Verdict

variable {α : Type}

def isCode : Verdict α → Bool
  | .code _ _ => true
  | _ => false

def probability? : Verdict α → Option α
  | .code _ p => some p
  | _ => none

def lineIndex? : Verdict α → Option Nat
  | .code i _ => some i
  | _ => none

end Verdict

namespace Scan

variable {α : Type} [LE α] [DecidableLE α]

/-- Searches `lines`, the first of which has the index `i`. -/
def lines (threshold : α) (skips : Text → Bool) (score : Text → α) : Nat → List Text → Scan α
  | _, [] => ⟨.prose, []⟩
  | i, line :: rest =>
    if skips line then ⟨.skipped i, []⟩
    else if threshold ≤ score line then ⟨.code i (score line), [line]⟩
    else
      let found := lines threshold skips score (i + 1) rest
      ⟨found.verdict, line :: found.scored⟩

def text (o : Options α) (score : Text → α) (cs : Text) : Scan α :=
  let parts := Text.splitLines cs
  if o.skipJavadocs && Guard.opensJavadoc parts then ⟨.javadoc, []⟩
  else lines o.threshold (Guard.isSkipLine o.skipSequence) score 0 parts

end Scan

/-- A comment with the outcome of its search. -/
structure Classified (α : Type) where
  comment : Comment
  scan : Scan α
deriving Repr

def classify {α : Type} [LE α] [DecidableLE α] (o : Options α) (score : Text → α) (c : Comment) :
    Classified α :=
  ⟨c, Scan.text o score c.text⟩

/-- The score in double precision. -/
def scoreLine (line : Text) : Float :=
  Evidence.score .double line

end CommentedCode
