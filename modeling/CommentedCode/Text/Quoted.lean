import CommentedCode.Text.Printable
import CommentedCode.Text.Utf8
/-!
# Quoted literals

A text or a byte sequence as a literal: in single quotes, or in double quotes if it holds a
single quote and no double one; backslashes, the quote and unprintable characters are escaped.
-/
namespace CommentedCode.Quoted

/-- At least `width` digits to the base sixteen. -/
def hexDigits (width n : Nat) : Text :=
  let digits := Nat.toDigits 16 n
  List.replicate (width - digits.length) '0' ++ digits

def quoteFor (hasSingle hasDouble : Bool) : Char :=
  if hasSingle && !hasDouble then '"' else '\''

def escapeNumber (n : Nat) : Text :=
  if n < 0x100 then '\\' :: 'x' :: hexDigits 2 n
  else if n < 0x10000 then '\\' :: 'u' :: hexDigits 4 n
  else '\\' :: 'U' :: hexDigits 8 n

def escapeChar (quote c : Char) : Text :=
  if c = quote || c = '\\' then ['\\', c]
  else if c = '\t' then ['\\', 't']
  else if c = '\n' then ['\\', 'n']
  else if c = '\r' then ['\\', 'r']
  else if Text.isPrintable c then [c]
  else escapeNumber c.toNat

def ofText (cs : Text) : Text :=
  let quote := quoteFor (cs.contains '\'') (cs.contains '"')
  quote :: cs.flatMap (escapeChar quote) ++ [quote]

def escapeByte (quote : Char) (b : UInt8) : Text :=
  if b < 0x80 then
    if 0x20 ≤ b && b < 0x7F || b == 0x09 || b == 0x0A || b == 0x0D then
      escapeChar quote (Char.ofNat b.toNat)
    else escapeNumber b.toNat
  else escapeNumber b.toNat

def ofBytes (bs : Utf8.Bytes) : Text :=
  let quote := quoteFor (bs.contains 0x27) (bs.contains 0x22)
  'b' :: quote :: bs.flatMap (escapeByte quote) ++ [quote]

end CommentedCode.Quoted
