import CommentedCode.Text.Character
import CommentedCode.Text.Quoted
/-!
# Argument grammars

A command takes flags, of which some have a value, and one operand.  Arguments are first told
apart as words and then consumed from the front: a flag may be given by any unambiguous start of
its name, its value behind an equals sign or as the next word, and two dashes alone make
operands of all that follows.
-/
namespace CommentedCode.CommandLine

/-- What may be wrong with the arguments. -/
inductive Problem
  | ambiguous (given : Text) (names : List Text)
  | badValue (flag : Text) (kind : String) (given : Text)
  | missingValue (flag : Text)
  | needlessValue (flag given : Text)
  | badChoice (operand given : Text) (choices : List Text)
  | missingOperand (operand : Text)
  | unrecognized (given : List Text)
deriving DecidableEq, Repr

namespace Problem

def about (name message : Text) : Text :=
  "argument ".toList ++ name ++ ": ".toList ++ message

def message : Problem → Text
  | ambiguous given names =>
    "ambiguous option: ".toList ++ given ++ " could match ".toList ++ Text.join [',', ' '] names
  | badValue flag kind given =>
    about flag (("invalid " ++ kind ++ " value: ").toList ++ Quoted.ofText given)
  | missingValue flag => about flag "expected one argument".toList
  | needlessValue flag given =>
    about flag ("ignored explicit argument ".toList ++ Quoted.ofText given)
  | badChoice operand given choices =>
    about operand ("invalid choice: ".toList ++ Quoted.ofText given ++ " (choose from ".toList ++
      Text.join [',', ' '] (choices.map Quoted.ofText) ++ [')'])
  | missingOperand operand => "the following arguments are required: ".toList ++ operand
  | unrecognized given => "unrecognized arguments: ".toList ++ Text.join [' '] given

end Problem

/-- Why reading ends before a request is known. -/
inductive Stop
  | version
  | help (program : Text)
  | problem (program : Text) (problem : Problem)
deriving DecidableEq, Repr

/-- What a flag does: it leaves the program, changes what has been read by the name it was given
under, or changes it by its value, if that reads as the kind asked for. -/
inductive Effect (σ : Type)
  | leave (stop : Stop)
  | switch (set : Text → σ → σ)
  | value (kind : String) (read : Text → Option (σ → σ))

/-- Names of one letter belong to flags that leave the program. -/
structure Flag (σ : Type) where
  names : List Text
  effect : Effect σ

def Flag.title {σ : Type} (f : Flag σ) : Text :=
  Text.join ['/'] f.names

/-- How much an operand takes: one word, a run of words, or all that is left, flags included. -/
inductive Extent
  | one
  | run
  | remainder
deriving DecidableEq, Repr

/-- The operand; what is set may leave words that nobody recognises. -/
structure Operand (σ : Type) where
  name : Text
  extent : Extent
  set : List Text → σ → Except Stop (σ × List Text)

structure Grammar (σ : Type) where
  program : Text
  flags : List (Flag σ)
  operand : Operand σ

/-- A flag under a full name, with the value that was joined to it; `signed` tells whether by an
equals sign. -/
structure Use (σ : Type) where
  flag : Flag σ
  name : Text
  value : Option Text
  signed : Bool

inductive Word (σ : Type)
  | known (given : Text) (use : Use σ)
  | unknown (given : Text)
  | operand (given : Text)
  | divider

def dividerText : Text :=
  ['-', '-']

namespace Word

variable {σ : Type}

def given : Word σ → Text
  | known given _ => given
  | unknown given => given
  | operand given => given
  | divider => dividerText

def isPlain : Word σ → Bool
  | operand _ => true
  | divider => true
  | _ => false

def operand? : Word σ → Option Text
  | operand given => some given
  | _ => none

end Word

/-- The text in front of the first equals sign, and what is behind it. -/
def splitValue (cs : Text) : Text × Option Text :=
  let name := cs.takeWhile (· ≠ '=')
  match cs.dropWhile (· ≠ '=') with
  | [] => (name, none)
  | _ :: value => (name, some value)

def isDigit (c : Char) : Bool :=
  (Text.digitValue? c).isSome

/-- A dash and digits with at most one point among them, not at the end. -/
def isNegativeNumber : Text → Bool
  | '-' :: cs =>
    let body := if cs.getLast? = some '\n' then cs.dropLast else cs
    match body.dropWhile isDigit with
    | [] => !body.isEmpty
    | '.' :: fraction => !fraction.isEmpty && fraction.all isDigit
    | _ => false
  | _ => false

namespace Extent

variable {σ : Type}

/-- What the operand takes from the front, and what is left. -/
def take : Extent → List (Word σ) → Option (List Text × List (Word σ))
  | one, .divider :: .operand given :: rest => some ([given], rest)
  | one, .operand given :: .divider :: rest => some ([given], rest)
  | one, .operand given :: rest => some ([given], rest)
  | run, .divider :: .operand given :: rest =>
    some (given :: (rest.takeWhile (·.isPlain)).filterMap (·.operand?),
      rest.dropWhile (·.isPlain))
  | run, .operand given :: rest =>
    some (given :: (rest.takeWhile (·.isPlain)).filterMap (·.operand?),
      rest.dropWhile (·.isPlain))
  | remainder, .divider :: .operand given :: rest =>
    some (dividerText :: given :: rest.map (·.given), [])
  | remainder, .operand given :: rest => some (given :: rest.map (·.given), [])
  | _, _ => none

theorem take_length {e : Extent} {ws rest : List (Word σ)} {given : List Text}
    (h : e.take ws = some (given, rest)) : rest.length < ws.length := by
  have run_lt (l : List (Word σ)) (n : Nat) (hl : l.length < n) :
      (l.dropWhile (·.isPlain)).length < n :=
    Nat.lt_of_le_of_lt (List.dropWhile_sublist _).length_le hl
  unfold take at h
  split at h <;> cases h <;> first | exact run_lt _ _ (by simp +arith) | simp +arith

end Extent

/-- What has been read, the words that nobody recognises, and whether the operand was found. -/
structure Outcome (σ : Type) where
  state : σ
  extras : List Text
  found : Bool

namespace Grammar

variable {σ : Type} (g : Grammar σ)

def flag? (name : Text) : Option (Flag σ) :=
  g.flags.find? (·.names.contains name)

/-- A flag that is given by its full name. -/
def named? (given : Text) : Option (Use σ) :=
  match g.flag? given with
  | some flag => some ⟨flag, given, none, false⟩
  | none =>
    match splitValue given with
    | (name, some value) => (g.flag? name).map fun flag => ⟨flag, name, some value, true⟩
    | (_, none) => none

/-- The flags that may be meant by a shortened name or by a letter with a value joined to it. -/
def candidates (given : Text) : List (Use σ) :=
  match given with
  | '-' :: '-' :: _ =>
    let (lead, value) := splitValue given
    g.flags.flatMap fun flag =>
      (flag.names.filter (Text.startsWith · lead)).map fun name =>
        ⟨flag, name, value, value.isSome⟩
  | '-' :: c :: value =>
    ((g.flag? ['-', c]).map fun flag => ⟨flag, ['-', c], some value, false⟩).toList
  | _ => []

/-- A single dash is an operand, and so are negative numbers and texts with spaces unless they
name a flag. -/
def word (given : Text) : Except Problem (Word σ) :=
  match given with
  | '-' :: _ :: _ =>
    match g.named? given with
    | some use => .ok (.known given use)
    | none =>
      match g.candidates given with
      | [] =>
        if isNegativeNumber given || given.contains ' ' then .ok (.operand given)
        else .ok (.unknown given)
      | [use] => .ok (.known given use)
      | uses => .error (.ambiguous given (uses.map (·.name)))
  | _ => .ok (.operand given)

def words : List Text → Except Problem (List (Word σ))
  | [] => .ok []
  | given :: rest =>
    if given = dividerText then .ok (.divider :: rest.map .operand)
    else do
      let first ← g.word given
      let later ← words rest
      return first :: later

/-- Letters that are joined to a letter must be flags themselves or be unknown. -/
def checkJoined (flag : Flag σ) (signed : Bool) : Text → Except Problem Unit
  | [] => .error (.needlessValue flag.title [])
  | c :: rest =>
    if signed || c == '-' then .error (.needlessValue flag.title (c :: rest))
    else
      match g.flag? ['-', c], rest with
      | none, _ => .ok ()
      | some _, [] => .ok ()
      | some next, '=' :: value => checkJoined next true value
      | some next, d :: value => checkJoined next false (d :: value)

/-- Refuses a value for a flag that takes none. -/
def checkValue (use : Use σ) : Except Problem Unit :=
  match use.value with
  | none => .ok ()
  | some value =>
    if use.name.length = 2 then g.checkJoined use.flag use.signed value
    else .error (.needlessValue use.flag.title value)

def stop {α : Type} (p : Problem) : Except Stop α :=
  .error (.problem g.program p)

def readValue (flag : Flag σ) (kind : String) (read : Text → Option (σ → σ)) (given : Text)
    (s : σ) : Except Stop σ :=
  match read given with
  | some set => .ok (set s)
  | none => g.stop (.badValue flag.title kind given)

/-- What the operand takes, unless it has been read. -/
def takeOperand (found : Bool) (ws : List (Word σ)) : Option (List Text × List (Word σ)) :=
  if found then none else g.operand.extent.take ws

theorem takeOperand_length {found : Bool} {ws rest : List (Word σ)} {given : List Text}
    (h : g.takeOperand found ws = some (given, rest)) : rest.length < ws.length := by
  cases found with
  | true => exact nomatch h
  | false => exact Extent.take_length h

/-- Consumes words from the front; `found` tells whether the operand has been read. -/
def consume (found : Bool) (ws : List (Word σ)) (s : σ) : Except Stop (Outcome σ) :=
  match ws with
  | [] => .ok ⟨s, [], found⟩
  | .unknown given :: rest => do
    let later ← consume found rest s
    return { later with extras := given :: later.extras }
  | .known _ use :: rest =>
    match use.flag.effect with
    | .leave stop => do
      (g.checkValue use).mapError (.problem g.program)
      .error stop
    | .switch set => do
      (g.checkValue use).mapError (.problem g.program)
      consume found rest (set use.name s)
    | .value kind read =>
      match use.value with
      | some given => do
        let s ← g.readValue use.flag kind read given s
        consume found rest s
      | none =>
        match rest with
        | .operand given :: left => do
          let s ← g.readValue use.flag kind read given s
          consume found left s
        | _ => g.stop (.missingValue use.flag.title)
  | w :: rest =>
    match _h : g.takeOperand found (w :: rest) with
    | some (given, left) => do
      let (s, unknown) ← g.operand.set given s
      let later ← consume true left s
      return { later with extras := unknown ++ later.extras }
    | none => do
      let later ← consume found rest s
      return { later with extras := w.given :: later.extras }
termination_by ws.length
decreasing_by
  all_goals first
    | exact g.takeOperand_length _h
    | decreasing_tactic

/-- Reads all arguments from the state `s`; words that nobody recognises are left over. -/
def read (s : σ) (given : List Text) : Except Stop (σ × List Text) := do
  let ws ← (g.words given).mapError (.problem g.program)
  let outcome ← g.consume false ws s
  if outcome.found then return (outcome.state, outcome.extras)
  g.stop (.missingOperand g.operand.name)

end Grammar
end CommentedCode.CommandLine
