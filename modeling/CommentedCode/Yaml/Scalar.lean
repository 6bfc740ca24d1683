import CommentedCode.Yaml.Input
/-!
# Scalar texts

The texts of plain, quoted and block scalars.  Line breaks within a plain or a quoted scalar are
folded: one break becomes a space, and of several the first is dropped.  Each reader takes the
rest of the input as a bound on its steps.
-/
namespace CommentedCode.Yaml

/-- Folds a break and the further breaks behind it. -/
def fold (first : Text) (more : Text) : Text :=
  if first ≠ ['\n'] then first ++ more
  else if more = [] then [' ']
  else more

/-- A scalar text, whether a key may follow, and the rest. -/
structure Plain where
  text : Text
  brokeLine : Bool
  rest : Input

/-- The characters of a plain scalar up to the next gap, break or indicator. -/
def plainRun (inFlow : Bool) : Input → Text × Input
  | [] => ([], [])
  | s :: rest =>
    let c := s.char
    let goesOn := (c == ':' && !endsWord (Input.next rest)) || c == '?'
    let stops := endsWord c || c == ':' ||
      (inFlow && (c == ',' || c == '[' || c == ']' || c == '\x7b' || c == '\x7d'))
    if stops && !goesOn then ([], s :: rest)
    else let (run, rest) := plainRun inFlow rest; (c :: run, rest)

/-- Further breaks and the spaces before the next text of a plain scalar; none in front of a
document marker. -/
def plainBreaks : Nat → Input → Option Text × Input
  | 0, input => (some [], input)
  | bound + 1, input =>
    if input.next = ' ' then plainBreaks bound (input.drop 1)
    else if isBreak input.next then
      let (here, rest) := input.lineBreak
      if rest.isDocumentMarker then (none, rest)
      else
        let (more, rest) := plainBreaks bound rest
        (more.map (here ++ ·), rest)
    else (some [], input)

/-- What stands between two runs of a plain scalar: nothing ends it. -/
def plainSpace (input : Input) : Plain :=
  let gap := input.takeWhile (· == ' ')
  let rest := input.dropWhile (· == ' ')
  if isBreak rest.next then
    let (first, rest) := rest.lineBreak
    if rest.isDocumentMarker then ⟨[], true, rest⟩
    else
      match plainBreaks rest.length rest with
      | (none, rest) => ⟨[], true, rest⟩
      | (some more, rest) => ⟨fold first more, true, rest⟩
  else ⟨gap, false, rest⟩

/-- A plain scalar whose lines are indented by at least `indent`; `space` stands before the next
run. -/
def plain (inFlow : Bool) (indent : Int) : Nat → Text → Bool → Input → Plain
  | 0, _, broke, input => ⟨[], broke, input⟩
  | bound + 1, space, broke, input =>
    if input.next = '#' then ⟨[], broke, input⟩
    else
      let (run, rest) := plainRun inFlow input
      if run = [] then ⟨[], broke, rest⟩
      else
        let gap := plainSpace rest
        if gap.text = [] ∨ gap.rest.next = '#' ∨ (!inFlow ∧ (gap.rest.column : Int) < indent) then
          ⟨space ++ run, gap.brokeLine, gap.rest⟩
        else
          let more := plain inFlow indent bound gap.text gap.brokeLine gap.rest
          ⟨space ++ run ++ more.text, more.brokeLine, more.rest⟩

/-- The character that a letter behind a backslash stands for. -/
def escape? : Char → Option Char
  | '0' => some '\x00'
  | 'a' => some '\x07'
  | 'b' => some '\x08'
  | 't' => some '\t'
  | '\t' => some '\t'
  | 'n' => some '\n'
  | 'v' => some '\x0B'
  | 'f' => some '\x0C'
  | 'r' => some '\r'
  | 'e' => some '\x1B'
  | ' ' => some ' '
  | '"' => some '"'
  | '/' => some '/'
  | '\\' => some '\\'
  | 'N' => some '\x85'
  | '_' => some '\xA0'
  | 'L' => some '\u2028'
  | 'P' => some '\u2029'
  | _ => none

/-- How many hexadecimal digits follow a letter behind a backslash. -/
def escapeWidth? : Char → Option Nat
  | 'x' => some 2
  | 'u' => some 4
  | 'U' => some 8
  | _ => none

def hexDigit? (c : Char) : Option Nat :=
  if '0' ≤ c && c ≤ '9' then some (c.toNat - '0'.toNat)
  else if 'a' ≤ c && c ≤ 'f' then some (c.toNat - 'a'.toNat + 10)
  else if 'A' ≤ c && c ≤ 'F' then some (c.toNat - 'A'.toNat + 10)
  else none

def hexNumber? (cs : Text) : Option Nat :=
  cs.foldlM (fun n c => (hexDigit? c).map (n * 16 + ·)) 0

/-- The breaks behind a break in a quoted scalar. -/
def quotedBreaks : Nat → Input → Except Error (Text × Input)
  | 0, _ => .error .malformed
  | bound + 1, input =>
    if input.isDocumentMarker then .error .malformed
    else
      let rest := input.dropWhile isGap
      if isBreak rest.next then do
        let (here, rest) := rest.lineBreak
        let (more, rest) ← quotedBreaks bound rest
        return (here ++ more, rest)
      else .ok ([], rest)

/-- Gaps and breaks in a quoted scalar. -/
def quotedSpace (input : Input) : Except Error (Text × Input) :=
  let gap := input.takeWhile isGap
  let rest := input.dropWhile isGap
  if rest.next = endMark then .error .malformed
  else if isBreak rest.next then do
    let (first, rest) := rest.lineBreak
    let (more, rest) ← quotedBreaks rest.length rest
    return (fold first more, rest)
  else .ok (gap, rest)

/-- The part of a double-quoted scalar behind a backslash. -/
def escaped (input : Input) : Except Error (Text × Input) :=
  let c := input.next
  match escape? c, escapeWidth? c with
  | some d, _ => .ok ([d], input.drop 1)
  | none, some width =>
    match hexNumber? ((input.drop 1).take width) with
    | some n =>
      if n < 0x110000 then .ok ([Char.ofNat n], input.drop (width + 1))
      else .error (.badScalar "chr() arg not in range(0x110000)".toList)
    | none => .error .malformed
  | none, none =>
    if isBreak c then
      let rest := input.lineBreak.2
      quotedBreaks rest.length rest
    else .error .malformed

/-- A quoted scalar behind its opening quote. -/
def quoted (double : Bool) : Nat → Input → Except Error (Text × Input)
  | 0, _ => .error .malformed
  | bound + 1, input =>
    let c := input.next
    let continued (part : Text × Input) : Except Error (Text × Input) := do
      let (more, rest) ← quoted double bound part.2
      return (part.1 ++ more, rest)
    if !double && c == '\'' && input.ahead 1 == '\'' then continued (['\''], input.drop 2)
    else if c = (if double then '"' else '\'') then .ok ([], input.drop 1)
    else if double && c == '\\' then do continued (← escaped (input.drop 1))
    else if isGap c || isBreak c || c == endMark then do continued (← quotedSpace input)
    else continued ([c], input.drop 1)

/-- How the breaks at the end of a block scalar are kept. -/
inductive Chomping
  | clip
  | strip
  | keep
deriving DecidableEq

structure BlockHeader where
  chomping : Chomping
  indent : Option Nat

def chomping? : Char → Option Chomping
  | '+' => some .keep
  | '-' => some .strip
  | _ => none

def indentDigit? (c : Char) : Option Nat :=
  if '0' ≤ c && c ≤ '9' then some (c.toNat - '0'.toNat) else none

/-- The indicators behind `|` or `>`, in either order. -/
def blockIndicators (input : Input) : Except Error (BlockHeader × Input) := do
  let (header, rest) : BlockHeader × Input :=
    match chomping? input.next with
    | some chomping =>
      match indentDigit? (input.ahead 1) with
      | some n => (⟨chomping, some n⟩, input.drop 2)
      | none => (⟨chomping, none⟩, input.drop 1)
    | none =>
      match indentDigit? input.next with
      | some n =>
        match chomping? (input.ahead 1) with
        | some chomping => (⟨chomping, some n⟩, input.drop 2)
        | none => (⟨.clip, some n⟩, input.drop 1)
      | none => (⟨.clip, none⟩, input)
  if header.indent = some 0 then throw .malformed
  if !(isBreakOrEnd rest.next || rest.next == ' ') then throw .malformed
  return (header, rest)

/-- Spaces, a comment, and the break behind the indicators. -/
def headerEnd (input : Input) : Except Error Input :=
  let rest := input.dropWhile (· == ' ')
  let rest := if rest.next = '#' then rest.dropWhile (!endsLine ·) else rest
  if endsLine rest.next then .ok rest.lineBreak.2 else .error .malformed

/-- The blank lines at the beginning of a block scalar, the column of the first break and the
largest column. -/
structure BlockStart where
  breaks : Text
  first : Option Nat
  widest : Nat
  rest : Input

def blockStart : Nat → BlockStart → BlockStart
  | 0, s => s
  | bound + 1, s =>
    if s.rest.next = ' ' then
      let rest := s.rest.drop 1
      blockStart bound { s with widest := max s.widest rest.column, rest := rest }
    else if isBreak s.rest.next then
      let (here, rest) := s.rest.lineBreak
      blockStart bound
        { s with
          breaks := s.breaks ++ here, first := s.first.or (some s.rest.column), rest := rest }
    else s

/-- Drops spaces as far as the column `indent`. -/
def dropIndent (indent : Nat) : Input → Input
  | [] => []
  | s :: rest => if s.column < indent ∧ s.char = ' ' then dropIndent indent rest else s :: rest

/-- Blank lines within a block scalar. -/
def blockBreaks (indent : Nat) : Nat → Input → Text × Input
  | 0, input => ([], input)
  | bound + 1, input =>
    let rest := dropIndent indent input
    if isBreak rest.next then
      let (here, rest) := rest.lineBreak
      let (more, rest) := blockBreaks indent bound rest
      (here ++ more, rest)
    else ([], rest)

/-- The lines of a block scalar; `breaks` stand before the next one. -/
def blockLines (folded : Bool) (chomping : Chomping) (atTop : Bool) (indent : Nat) :
    Nat → Text → Text → Input → Text × Input
  | 0, _, _, input => ([], input)
  | bound + 1, lastBreak, breaks, input =>
    let ending (lastBreak breaks : Text) : Text :=
      match chomping with
      | .strip => []
      | .clip => lastBreak
      | .keep => lastBreak ++ breaks
    if input.column = indent ∧ input.next ≠ endMark then
      let startsSolid := !isGap input.next
      let line := input.takeWhile (!endsLine ·)
      let (lastBreak, rest) := (input.dropWhile (!endsLine ·)).lineBreak
      let (more, rest) := blockBreaks indent rest.length rest
      let goesOn := !(atTop && rest.column == 0 && rest.isDocumentMarker) &&
        rest.column == indent && rest.next != endMark
      if goesOn then
        let glue :=
          if folded && lastBreak == ['\n'] && startsSolid && !isGap rest.next then
            if more = [] then [' '] else []
          else lastBreak
        let (later, rest) := blockLines folded chomping atTop indent bound lastBreak more rest
        (breaks ++ line ++ glue ++ later, rest)
      else (breaks ++ line ++ ending lastBreak more, rest)
    else (ending lastBreak breaks, input)

/-- A block scalar behind its indicator; `parent` is the indentation around it. -/
def block (folded : Bool) (parent : Int) (input : Input) : Except Error (Text × Input) := do
  let (header, rest) ← blockIndicators input
  let rest ← headerEnd rest
  let least := (parent + 1).toNat
  match header.indent with
  | none =>
    let start := blockStart rest.length ⟨[], none, 0, rest⟩
    if (start.first.any fun first => 0 < first && first < start.widest) then throw .malformed
    let indent := max least start.widest
    return blockLines folded header.chomping (least == 0) indent start.rest.length [] start.breaks
      start.rest
  | some n =>
    let indent := max least 1 + n - 1
    let (breaks, rest) := blockBreaks indent rest.length rest
    return blockLines folded header.chomping false indent rest.length [] breaks rest

end CommentedCode.Yaml
