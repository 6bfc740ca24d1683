import CommentedCode.Decimal.Basic
import CommentedCode.Text.Character
import CommentedCode.Text.LetterCase
/-!
# Measures

Five counts that tell code from prose in one line of a comment.  Occurrences of a token may not
overlap and are taken from the left.
-/
namespace CommentedCode.Text

open scoped Naturals

/-- Occurrences of a non-empty token; `skip` characters still belong to the last one. -/
def countFrom (token : Text) : Nat → Text → Nat
  | _, [] => 0
  | skip + 1, _ :: cs => countFrom token skip cs
  | 0, c :: cs =>
    if startsWith (c :: cs) token then 1 + countFrom token (token.length - 1) cs
    else countFrom token 0 cs

/-- The empty token occurs around every character. -/
def count (cs token : Text) : Nat :=
  if token = [] then cs.length + 1 else countFrom token 0 cs

/-- Each token is counted on its own, so nested tokens all count. -/
def countAll (cs : Text) (tokens : List Text) : Nat :=
  (tokens.map (count cs)).sum

end CommentedCode.Text

namespace CommentedCode.Measure

/-- Characters that end a statement or bound a block. -/
def terminators : List Char :=
  ['}', ';', '{']

def logicalOperators : List Text :=
  ["||", "&&"].map String.toList

def keywords : List Text :=
  ["public", "abstract", "class", "implements", "extends", "return", "throw", "private",
    "protected", "enum", "continue", "assert", "package", "synchronized", "boolean", "this",
    "double", "instanceof", "final", "interface", "static", "void", "long", "int", "float",
    "super", "true", "case:"].map String.toList

/-- Idioms as they read when all blanks are gone. -/
def controlFlowIdioms : List Text :=
  ["++", "for(", "if(", "while(", "catch(", "switch(", "try\x7b", "else\x7b"].map String.toList

/-- One if the last character that is not blank is a terminator. -/
def terminator (line : Text) : Nat :=
  if (Text.trimRight line).getLast?.any terminators.contains then 1 else 0

def logicalOperatorCount (line : Text) : Nat :=
  Text.countAll line logicalOperators

def keywordCount (line : Text) : Nat :=
  Text.countAll line keywords

def controlFlowCount (line : Text) : Nat :=
  Text.countAll (Text.withoutBlanks line) controlFlowIdioms

/-- The case of a character; one that takes two 16-bit units is no letter. -/
def caseOfChar (caseOf : Nat → LetterCase) (c : Char) : LetterCase :=
  if 0xFFFF < c.toNat then .neither else caseOf c.toNat

/-- Whether an uppercase letter directly follows a lowercase one; `previous` goes before. -/
def hasHump (caseOf : Nat → LetterCase) (previous : LetterCase) : Text → Bool
  | [] => false
  | c :: cs =>
    let current := caseOfChar caseOf c
    (previous == .lower && current == .upper) || hasHump caseOf current cs

def camelCaseBy (caseOf : Nat → LetterCase) (line : Text) : Nat :=
  if hasHump caseOf .neither line then 1 else 0

def camelCase (line : Text) : Nat :=
  camelCaseBy LetterCase.ofUnit line

end CommentedCode.Measure
