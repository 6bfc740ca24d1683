import CommentedCode.Text.Lines
/-!
# UTF-8

A byte sequence is read as characters and faults.  A fault covers the longest start of a
character that can be made out, or one byte; reading goes on behind it.  `decode?` refuses the
first fault, `decodeLossy` drops all of them.  In the text of a file every line break becomes a line
feed.
-/
namespace CommentedCode.Utf8

abbrev Bytes := List UInt8

inductive Fault
  | badStart
  | badContinuation
  | truncated
deriving DecidableEq, Repr

/-- One character, or a fault with the bytes that it covers; `size` is how many bytes the piece
takes beyond its first. -/
inductive Piece
  | char (c : Char) (size : Nat)
  | fault (kind : Fault) (size : Nat)
deriving Repr

def Piece.size : Piece → Nat
  | .char _ n => n
  | .fault _ n => n

def isContinuation (b : UInt8) : Bool :=
  0x80 ≤ b && b < 0xC0

/-- The second bytes that may follow `first`: they exclude overlong forms, surrogates and what
lies above the last code point. -/
def continues (first second : UInt8) : Bool :=
  isContinuation second &&
    (if first = 0xE0 then 0xA0 ≤ second
     else if first = 0xED then second < 0xA0
     else if first = 0xF0 then 0x90 ≤ second
     else if first = 0xF4 then second < 0x90
     else true)

def low (b : UInt8) : Nat :=
  b.toNat - 0x80

/-- The piece that begins with the byte `b`. -/
def piece (b : UInt8) (rest : Bytes) : Piece :=
  if b < 0x80 then .char (Char.ofNat b.toNat) 0
  else if b < 0xC2 then .fault .badStart 0
  else if b < 0xE0 then
    match rest with
    | [] => .fault .truncated 0
    | c :: _ =>
      if continues b c then .char (Char.ofNat ((b.toNat - 0xC0) * 0x40 + low c)) 1
      else .fault .badContinuation 0
  else if b < 0xF0 then
    match rest with
    | [] => .fault .truncated 0
    | c :: rest =>
      if continues b c then
        match rest with
        | [] => .fault .truncated 1
        | d :: _ =>
          if isContinuation d then
            .char (Char.ofNat ((b.toNat - 0xE0) * 0x1000 + low c * 0x40 + low d)) 2
          else .fault .badContinuation 1
      else .fault .badContinuation 0
  else if b < 0xF5 then
    match rest with
    | [] => .fault .truncated 0
    | c :: rest =>
      if continues b c then
        match rest with
        | [] => .fault .truncated 1
        | d :: rest =>
          if isContinuation d then
            match rest with
            | [] => .fault .truncated 2
            | e :: _ =>
              if isContinuation e then
                .char (Char.ofNat ((b.toNat - 0xF0) * 0x40000 + low c * 0x1000 + low d * 0x40
                  + low e)) 3
              else .fault .badContinuation 2
          else .fault .badContinuation 1
      else .fault .badContinuation 0
  else .fault .badStart 0

/-- The pieces in order; `skip` bytes still belong to the last one. -/
def piecesFrom : Nat → Bytes → List Piece
  | _, [] => []
  | skip + 1, _ :: bs => piecesFrom skip bs
  | 0, b :: bs => piece b bs :: piecesFrom (piece b bs).size bs

def pieces (bs : Bytes) : List Piece :=
  piecesFrom 0 bs

/-- Why, where and on how many bytes strict reading stops. -/
structure Error where
  fault : Fault
  position : Nat
  length : Nat
  first : UInt8
deriving DecidableEq, Repr

def decodeFrom : Nat → Nat → Bytes → Except Error Text
  | _, _, [] => .ok []
  | position, skip + 1, _ :: bs => decodeFrom (position + 1) skip bs
  | position, 0, b :: bs =>
    match piece b bs with
    | .char c size => (decodeFrom (position + 1) size bs).map (c :: ·)
    | .fault fault size => .error ⟨fault, position, size + 1, b⟩

/-- Strict reading. -/
def decode? (bs : Bytes) : Except Error Text :=
  decodeFrom 0 0 bs

/-- Reading that drops what is no character. -/
def decodeLossy (bs : Bytes) : Text :=
  (pieces bs).filterMap fun
    | .char c _ => some c
    | .fault _ _ => none

def encode (cs : Text) : Bytes :=
  cs.flatMap String.utf8EncodeChar

def Fault.message : Fault → String
  | .badStart => "invalid start byte"
  | .badContinuation => "invalid continuation byte"
  | .truncated => "unexpected end of data"

def hexByte (b : UInt8) : Text :=
  let digits := Nat.toDigits 16 b.toNat
  if digits.length < 2 then '0' :: digits else digits

def Error.message (e : Error) : String :=
  let place :=
    if e.length = 1 then
      "byte 0x" ++ String.ofList (hexByte e.first) ++ " in position " ++ toString e.position
    else
      "bytes in position " ++ toString e.position ++ "-" ++ toString (e.position + e.length - 1)
  "'utf-8' codec can't decode " ++ place ++ ": " ++ e.fault.message

end CommentedCode.Utf8

namespace CommentedCode.Source

/-- Text of which what is no UTF-8 is dropped. -/
def ofBytes (bs : Utf8.Bytes) : Text :=
  Text.unifyBreaks (Utf8.decodeLossy bs)

/-- Text that must be UTF-8. -/
def ofBytes? (bs : Utf8.Bytes) : Except Utf8.Error Text :=
  (Utf8.decode? bs).map Text.unifyBreaks

end CommentedCode.Source
