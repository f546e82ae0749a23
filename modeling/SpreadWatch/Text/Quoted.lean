import SpreadWatch.Text.Printable

/-!
Quoted text, as values are shown inside messages: single quotes unless the text holds a single
quote and no double quote; line breaks, tabs, backslashes, the quote itself and unprintable
characters are escaped.
-/

namespace SpreadWatch.Text

/-- The lower-case hexadecimal digits of a number, with at least `width` of them. -/
def hexDigits (width n : Nat) : List Char :=
  let digits := Nat.toDigits 16 n
  List.replicate (width - digits.length) '0' ++ digits

def quotedChar (quote c : Char) : List Char :=
  if c == quote || c == '\\' then ['\\', c]
  else if c == '\n' then ['\\', 'n']
  else if c == '\r' then ['\\', 'r']
  else if c == '\t' then ['\\', 't']
  else if isPrintable c then [c]
  else if c.toNat < 0x100 then '\\' :: 'x' :: hexDigits 2 c.toNat
  else if c.toNat < 0x10000 then '\\' :: 'u' :: hexDigits 4 c.toNat
  else '\\' :: 'U' :: hexDigits 8 c.toNat

def quoteMark (chars : List Char) : Char :=
  if chars.contains '\'' && ! chars.contains '"' then '"' else '\''

def quoted (text : String) : String :=
  let chars := text.toList
  let quote := quoteMark chars
  String.ofList (quote :: (chars.flatMap (quotedChar quote) ++ [quote]))

def quotedByte (quote : Char) (byte : UInt8) : List Char :=
  if byte.toNat < 0x80 then quotedChar quote (Char.ofNat byte.toNat)
  else '\\' :: 'x' :: hexDigits 2 byte.toNat

def quotedBytes (bytes : List UInt8) : String :=
  let quote := quoteMark (bytes.map fun byte => Char.ofNat byte.toNat)
  String.ofList ('b' :: quote :: (bytes.flatMap (quotedByte quote) ++ [quote]))

end SpreadWatch.Text
