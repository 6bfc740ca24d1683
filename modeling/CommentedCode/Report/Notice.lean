import CommentedCode.Decimal.Notation
import CommentedCode.Files.Path
/-!
# Notices

What a run tells about its progress, each notice with its level, and computations that give
notices along with their outcome.
-/
namespace CommentedCode

inductive Level
  | debug
  | info
  | warning
deriving DecidableEq, Repr

namespace Level

def rank : Level → Nat
  | debug => 0
  | info => 1
  | warning => 2

def name : Level → String
  | debug => "DEBUG"
  | info => "INFO"
  | warning => "WARNING"

end Level

inductive Notice
  | noSettingsFile (name : String) (root : Path)
  | loading (path : Path)
  | selected (path : Path) (count : Nat)
  | checking (files : Nat) (jobs : Int)
  | skipping (shown reason : Text)
  | checked (shown : Text) (violations : Nat)
  | syntaxErrors (count : Nat)
  | javadoc (startLine endLine : Int)
  | skipLine (startLine endLine : Int)
deriving DecidableEq, Repr

namespace Notice

def level : Notice → Level
  | noSettingsFile _ _ => .debug
  | loading _ => .info
  | selected _ _ => .debug
  | checking _ _ => .info
  | skipping _ _ => .warning
  | checked _ _ => .debug
  | syntaxErrors _ => .debug
  | javadoc _ _ => .debug
  | skipLine _ _ => .debug

def lineRange (startLine endLine : Int) : Text :=
  "lines ".toList ++ intText startLine ++ '-' :: intText endLine

def message : Notice → Text
  | noSettingsFile name root =>
    ("No " ++ name ++ " in ").toList ++ root.text ++ ", using defaults".toList
  | loading path => "Loading config from ".toList ++ path.text
  | selected path count =>
    path.text ++ ": ".toList ++ decimalDigits count ++ " file(s) selected".toList
  | checking files jobs =>
    "Checking ".toList ++ decimalDigits files ++ " file(s) with ".toList ++ intText jobs ++
      " job(s)".toList
  | skipping shown reason => "Skipping ".toList ++ shown ++ ": ".toList ++ reason
  | checked shown violations =>
    shown ++ ": ".toList ++ decimalDigits violations ++ " violation(s)".toList
  | syntaxErrors count =>
    "Java source has ".toList ++ decimalDigits count ++
      " syntax error node(s); comments are still extracted".toList
  | javadoc startLine endLine => lineRange startLine endLine ++ ": javadoc, not checked".toList
  | skipLine startLine endLine => lineRange startLine endLine ++ ": skip sequence found".toList

def line (n : Notice) : Text :=
  '[' :: n.level.name.toList ++ "] ".toList ++ n.message ++ ['\n']

/-- The lines of the notices from a level on. -/
def linesFrom (least : Level) (notices : List Notice) : Text :=
  (notices.filter fun n => least.rank ≤ n.level.rank).flatMap line

end Notice

/-- An outcome and the notices given on the way to it. -/
structure Logged (ε α : Type) where
  notices : List Notice
  outcome : Except ε α

namespace Logged

variable {ε α β : Type}

def ofExcept (outcome : Except ε α) : Logged ε α :=
  ⟨[], outcome⟩

def tell (notices : List Notice) : Logged ε Unit :=
  ⟨notices, .ok ()⟩

def bind (x : Logged ε α) (f : α → Logged ε β) : Logged ε β :=
  match x.outcome with
  | .ok a => ⟨x.notices ++ (f a).notices, (f a).outcome⟩
  | .error e => ⟨x.notices, .error e⟩

instance : Monad (Logged ε) where
  pure a := ⟨[], .ok a⟩
  bind := bind

def mapError {δ : Type} (f : ε → δ) (x : Logged ε α) : Logged δ α :=
  ⟨x.notices, x.outcome.mapError f⟩

end Logged
end CommentedCode
