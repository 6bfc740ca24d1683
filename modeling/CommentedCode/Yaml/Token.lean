import CommentedCode.Text.Utf8
import CommentedCode.Yaml.Scalar
/-!
# YAML tokens

A document is cut into tokens.  Indentation becomes tokens of its own, and a simple key is
recognised only at the colon behind it: its token is then put in front of what has been read of
the key.
-/
namespace CommentedCode.Yaml

inductive Token
  | version (major minor : Nat)
  | tagHandle (handle lead : Text)
  | reserved
  | documentStart
  | documentEnd
  | streamEnd
  | blockSequenceStart
  | blockMappingStart
  | blockEnd
  | flowSequenceStart
  | flowSequenceEnd
  | flowMappingStart
  | flowMappingEnd
  | blockEntry
  | flowEntry
  | key
  | value
  | reuse (name : Text)
  | anchor (name : Text)
  | tag (handle : Option Text) (suffix : Text)
  | scalar (text : Text) (isPlain : Bool)
deriving DecidableEq, Repr

/-- A token and the line on which it starts. -/
structure Placed where
  token : Token
  line : Nat
deriving Repr

/-- A place where a simple key may have begun. -/
structure SimpleKey where
  level : Nat
  number : Nat
  required : Bool
  spot : Spot

structure Scanner where
  rest : Input
  tokens : List Placed
  indent : Int
  indents : List Int
  flow : List Char
  allowsKey : Bool
  keys : List SimpleKey
  ended : Bool

namespace Scanner

def start (input : Input) : Scanner :=
  { rest := input, tokens := [], indent := -1, indents := [], flow := [], allowsKey := true,
    keys := [], ended := false }

def inFlow (s : Scanner) : Bool :=
  !s.flow.isEmpty

def level (s : Scanner) : Nat :=
  s.flow.length

def push (s : Scanner) (t : Token) : Scanner :=
  { s with tokens := s.tokens ++ [⟨t, s.rest.line⟩] }

def skip (s : Scanner) (n : Nat) : Scanner :=
  { s with rest := s.rest.drop n }

/-- Skips gaps, comments and breaks; a break in block context lets a key follow. -/
def toNextToken : Nat → Scanner → Scanner
  | 0, s => s
  | bound + 1, s =>
    let rest := s.rest.dropWhile fun c => c == ' ' || (s.inFlow && c == '\t')
    let rest := if rest.next = '#' then rest.dropWhile (!endsLine ·) else rest
    if isBreak rest.next then
      toNextToken bound
        { s with rest := rest.lineBreak.2, allowsKey := s.allowsKey || !s.inFlow }
    else { s with rest := rest }

def skipByteOrderMark (s : Scanner) : Scanner :=
  if s.rest.here.index = 0 ∧ s.rest.next = '\uFEFF' then s.skip 1 else s

/-- A simple key lies within one line and is not longer than 1024 characters. -/
def isStale (s : Scanner) (k : SimpleKey) : Bool :=
  k.spot.line != s.rest.line || s.rest.here.index - k.spot.index > 1024

def dropStale (s : Scanner) : Except Error Scanner :=
  if s.keys.any fun k => s.isStale k && k.required then .error .malformed
  else .ok { s with keys := s.keys.filter fun k => !s.isStale k }

/-- Gives up the possible key at the current level. -/
def dropKey (s : Scanner) : Except Error Scanner :=
  if s.keys.any fun k => k.level == s.level && k.required then .error .malformed
  else .ok { s with keys := s.keys.filter fun k => k.level != s.level }

/-- Notes that the next token may begin a simple key. -/
def saveKey (s : Scanner) : Except Error Scanner :=
  if s.allowsKey then do
    let required := !s.inFlow && s.indent == s.rest.column
    let t ← s.dropKey
    return { t with keys := ⟨s.level, s.tokens.length, required, s.rest.here⟩ :: t.keys }
  else .ok s

/-- Closes the blocks that are indented further than `column`. -/
def unwind (column : Int) : Nat → Scanner → Scanner
  | 0, s => s
  | bound + 1, s =>
    if !s.inFlow && column < s.indent then
      let closed := s.push .blockEnd
      unwind column bound
        { closed with indent := s.indents.headD (-1), indents := s.indents.tail }
    else s

def unwindTo (s : Scanner) (column : Int) : Scanner :=
  s.unwind column (s.indents.length + 1)

/-- Opens a block at a column, if it is indented further; the token goes to place `number`. -/
def openBlock (s : Scanner) (column number : Nat) (t : Token) : Scanner :=
  if s.indent < column then
    { s with
      indents := s.indent :: s.indents
      indent := column
      tokens := s.tokens.insertIdx number ⟨t, s.rest.line⟩ }
  else s

def single (s : Scanner) (t : Token) : Scanner :=
  (s.push t).skip 1

def streamEnd (s : Scanner) : Except Error Scanner := do
  let t ← (s.unwindTo (-1)).dropKey
  return { t.push .streamEnd with ended := true, allowsKey := false, keys := [] }

def isNameChar (c : Char) : Bool :=
  c.isAlphanum || c == '-' || c == '_' || c == ':' || c == '.'

/-- Spaces, a comment, and the end of the line. -/
def directiveEnd (input : Input) : Except Error Input :=
  let rest := input.dropWhile (· == ' ')
  let rest := if rest.next = '#' then rest.dropWhile (!endsLine ·) else rest
  if endsLine rest.next then .ok rest.lineBreak.2 else .error .malformed

def number? (input : Input) : Except Error (Nat × Input) :=
  let digits := input.takeWhile Char.isDigit
  if digits = [] then .error .malformed
  else .ok (digits.foldl (fun n c => n * 10 + (c.toNat - '0'.toNat)) 0,
    input.dropWhile Char.isDigit)

def versionDirective (input : Input) : Except Error (Token × Input) := do
  let (major, rest) ← number? (input.dropWhile (· == ' '))
  if rest.next ≠ '.' then throw .malformed
  let (minor, rest) ← number? (rest.drop 1)
  if !(isBreakOrEnd rest.next || rest.next == ' ') then throw .malformed
  return (.version major minor, rest)

def isTagChar (c : Char) : Bool :=
  c.isAlphanum || "-;/?:@&=+$,_.!~*'()[]%#".toList.contains c

/-- A tag's text, its percent escapes read as UTF-8; refused if it is empty. -/
def tagText : Nat → Input → Except Error (Utf8.Bytes × Input)
  | 0, input => .ok ([], input)
  | bound + 1, input =>
    let c := input.next
    if c = '%' then
      match hexNumber? ((input.drop 1).take 2) with
      | some n => do
        let (more, rest) ← tagText bound (input.drop 3)
        return (UInt8.ofNat n :: more, rest)
      | none => .error .malformed
    else if isTagChar c then do
      let (more, rest) ← tagText bound (input.drop 1)
      return (Utf8.encode [c] ++ more, rest)
    else .ok ([], input)

def tagUri (input : Input) : Except Error (Text × Input) := do
  let (bytes, rest) ← tagText input.length input
  if bytes = [] then throw .malformed
  match Utf8.decode? bytes with
  | .ok cs => return (cs, rest)
  | .error _ => throw .malformed

/-- A handle: an exclamation mark, or a word between two of them. -/
def tagHandle (input : Input) : Except Error (Text × Input) :=
  if input.next ≠ '!' then .error .malformed
  else
    let rest := input.drop 1
    let isWordChar (c : Char) : Bool := c.isAlphanum || c == '-' || c == '_'
    let word := rest.takeWhile isWordChar
    let after := rest.dropWhile isWordChar
    if rest.next = ' ' then .ok (['!'], rest)
    else if after.next = '!' then .ok ('!' :: word ++ ['!'], after.drop 1)
    else .error .malformed

def tagDirective (input : Input) : Except Error (Token × Input) := do
  let (handle, rest) ← tagHandle (input.dropWhile (· == ' '))
  if rest.next ≠ ' ' then throw .malformed
  let (lead, rest) ← tagUri (rest.dropWhile (· == ' '))
  if !(isBreakOrEnd rest.next || rest.next == ' ') then throw .malformed
  return (.tagHandle handle lead, rest)

def directive (s : Scanner) : Except Error Scanner := do
  let t ← (s.unwindTo (-1)).dropKey
  let rest := t.rest.drop 1
  let name := rest.takeWhile isNameChar
  let rest := rest.dropWhile isNameChar
  if name = [] ∨ !(isBreakOrEnd rest.next || rest.next == ' ') then throw .malformed
  let (token, rest) ←
    if name = "YAML".toList then versionDirective rest
    else if name = "TAG".toList then tagDirective rest
    else pure (Token.reserved, rest.dropWhile (!endsLine ·))
  let rest ← directiveEnd rest
  return { t.push token with rest := rest, allowsKey := false }

def documentMarker (s : Scanner) (token : Token) : Except Error Scanner := do
  let t ← (s.unwindTo (-1)).dropKey
  return { (t.push token).skip 3 with allowsKey := false }

def flowStart (s : Scanner) (opening : Char) (token : Token) : Except Error Scanner := do
  let t ← s.saveKey
  return { t.single token with flow := opening :: s.flow, allowsKey := true }

def flowEnd (s : Scanner) (token : Token) : Except Error Scanner := do
  let t ← s.dropKey
  return { t.single token with flow := s.flow.tail, allowsKey := false }

def flowEntry (s : Scanner) : Except Error Scanner := do
  let t ← s.dropKey
  return { t.single .flowEntry with allowsKey := true }

def blockEntry (s : Scanner) : Except Error Scanner := do
  if !s.inFlow && !s.allowsKey then throw .malformed
  let t := if s.inFlow then s
    else s.openBlock s.rest.column s.tokens.length .blockSequenceStart
  let t ← t.dropKey
  return { t.single .blockEntry with allowsKey := true }

def keyMark (s : Scanner) : Except Error Scanner := do
  if !s.inFlow && !s.allowsKey then throw .malformed
  let t := if s.inFlow then s
    else s.openBlock s.rest.column s.tokens.length .blockMappingStart
  let t ← t.dropKey
  return { t.single .key with allowsKey := !s.inFlow }

def valueMark (s : Scanner) : Except Error Scanner :=
  match s.keys.find? (·.level == s.level) with
  | some k =>
    let t := { s with
      keys := s.keys.filter (·.level != s.level)
      tokens := s.tokens.insertIdx k.number ⟨.key, k.spot.line⟩ }
    let t := if s.inFlow then t else t.openBlock k.spot.column k.number .blockMappingStart
    .ok { t.single .value with allowsKey := false }
  | none => do
    if !s.inFlow && !s.allowsKey then throw .malformed
    let t := if s.inFlow then s
      else s.openBlock s.rest.column s.tokens.length .blockMappingStart
    let t ← t.dropKey
    return { t.single .value with allowsKey := !s.inFlow }

/-- Characters of the name of an anchor. -/
def isAnchorChar (c : Char) : Bool :=
  let n := c.toNat
  !",[]\x7b\x7d".toList.contains c &&
    ((0x21 ≤ n && n ≤ 0x7E) || (0xA0 ≤ n && n ≤ 0xD7FF) ||
      (0xE000 ≤ n && n ≤ 0xFFFD && n != 0xFEFF) || 0x10000 ≤ n)

def anchorName (input : Input) : Except Error (Text × Input) :=
  let name := input.takeWhile isAnchorChar
  let rest := input.dropWhile isAnchorChar
  if name = [] then .error .malformed
  else if isBreakOrEnd rest.next || " \t?:,[]\x7b\x7d%@\x60".toList.contains rest.next then
    .ok (name, rest)
  else .error .malformed

def reference (s : Scanner) (make : Text → Token) : Except Error Scanner := do
  let t ← s.saveKey
  let (name, rest) ← anchorName (s.rest.drop 1)
  return { t.push (make name) with rest := rest, allowsKey := false }

/-- A tag: verbatim, a lone exclamation mark, or a handle with a suffix. -/
def tagToken (input : Input) : Except Error (Token × Input) := do
  let shortHandle : Text := if input.ahead 1 = '!' then ['!', '!'] else ['!']
  let start := if input.ahead 1 = '!' then input.drop 1 else input
  let (token, rest) ←
    if start.ahead 1 = '<' then do
      let (uri, rest) ← tagUri (start.drop 2)
      if rest.next ≠ '>' then throw .malformed
      pure (Token.tag none uri, rest.drop 1)
    else if endsWord (start.ahead 1) then
      pure (Token.tag none ['!'], start.drop 1)
    else do
      let word := (start.drop 1).takeWhile fun c => !isBreakOrEnd c && c != ' ' && c != '!'
      let (handle, rest) ←
        if start.ahead (word.length + 1) = '!' then tagHandle start
        else pure (shortHandle, start.drop 1)
      let (suffix, rest) ← tagUri rest
      pure (Token.tag (some handle) suffix, rest)
  if !(isBreakOrEnd rest.next || rest.next == ' ') then throw .malformed
  return (token, rest)

def tagMark (s : Scanner) : Except Error Scanner := do
  let t ← s.saveKey
  let (token, rest) ← tagToken s.rest
  return { t.push token with rest := rest, allowsKey := false }

def blockScalar (s : Scanner) (folded : Bool) : Except Error Scanner := do
  let t ← s.dropKey
  let (text, rest) ← block folded s.indent (s.rest.drop 1)
  return { t.push (.scalar text false) with rest := rest, allowsKey := true }

def quotedScalar (s : Scanner) (double : Bool) : Except Error Scanner := do
  let t ← s.saveKey
  let (text, rest) ← quoted double s.rest.length (s.rest.drop 1)
  return { t.push (.scalar text false) with rest := rest, allowsKey := false }

def plainScalar (s : Scanner) : Except Error Scanner := do
  let t ← s.saveKey
  let found := plain s.inFlow (s.indent + 1) s.rest.length [] false s.rest
  return { t.push (.scalar found.text true) with
    rest := found.rest, allowsKey := found.brokeLine }

/-- Whether a colon is a value indicator; `afterValue` tells that a value indicator still waits
to be used. -/
def isValueMark (s : Scanner) (afterValue : Bool) : Bool :=
  endsWord (s.rest.ahead 1) ||
    match s.flow with
    | [] => false
    | c :: _ => c != '[' && !afterValue

/-- Whether a plain scalar may begin here. -/
def startsPlain (s : Scanner) : Bool :=
  let c := s.rest.next
  let d := s.rest.ahead 1
  if !(isBreakOrEnd c || " \t-?:,[]\x7b\x7d#&*!|>'\"%@\x60".toList.contains c) then true
  else
    (c == '-' && !endsWord d) || (c == ':' && s.inFlow && !isGap d) ||
      (!endsWord d && (c == '?' || c == ':') && !s.inFlow)

/-- Reads the next token. -/
def step (s : Scanner) : Except Error Scanner := do
  let s ← s.dropStale
  let waiting := !s.keys.isEmpty
  let s ← (toNextToken s.rest.length s.skipByteOrderMark).dropStale
  let s := s.unwindTo s.rest.column
  let c := s.rest.next
  let d := s.rest.ahead 1
  let atMargin := s.rest.column == 0
  let afterValue := waiting && s.tokens.getLast?.any (·.token == .value)
  if c = endMark then s.streamEnd
  else if c = '%' ∧ atMargin then s.directive
  else if atMargin && s.rest.isMarker '-' then s.documentMarker .documentStart
  else if atMargin && s.rest.isMarker '.' then s.documentMarker .documentEnd
  else if c = '[' then s.flowStart '[' .flowSequenceStart
  else if c = '\x7b' then s.flowStart '\x7b' .flowMappingStart
  else if c = ']' then s.flowEnd .flowSequenceEnd
  else if c = '\x7d' then s.flowEnd .flowMappingEnd
  else if c = ',' then s.flowEntry
  else if c = '-' ∧ endsWord d then s.blockEntry
  else if c = '?' ∧ (s.inFlow || endsWord d) then s.keyMark
  else if c = ':' ∧ s.isValueMark afterValue then s.valueMark
  else if c = '*' then s.reference .reuse
  else if c = '&' then s.reference .anchor
  else if c = '!' then s.tagMark
  else if c = '|' ∧ !s.inFlow then s.blockScalar false
  else if c = '>' ∧ !s.inFlow then s.blockScalar true
  else if c = '\'' then s.quotedScalar false
  else if c = '"' then s.quotedScalar true
  else if s.startsPlain then s.plainScalar
  else throw .malformed

/-- Reads tokens to the end; every one takes at least one character. -/
def run : Nat → Scanner → Except Error (List Placed)
  | 0, _ => .error .malformed
  | bound + 1, s => do
    let t ← s.step
    if t.ended then return t.tokens
    run bound t

end Scanner

/-- The tokens of a document. -/
def tokens (cs : Text) : Except Error (List Placed) :=
  if !cs.all isAllowed then .error .malformed
  else
    let input := Input.ofText cs
    Scanner.run (input.length + 1) (.start input)

end CommentedCode.Yaml
