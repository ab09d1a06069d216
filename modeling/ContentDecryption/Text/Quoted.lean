import ContentDecryption.Bytes
import ContentDecryption.Text.Hidden

/-!
# Quoted texts

A text between double quotes, as values are shown to a reader: quotes and
backslashes get a backslash, the usual control characters their letter, and a
character without a visible form its code point in braces.
-/

namespace ContentDecryption

namespace Text

/-- The hexadecimal digits of a code point, without leading zeros. -/
def codePointDigits (c : Char) : List Char := Nat.toDigits 16 c.toNat

/-- One character of a quoted text. -/
def quotedChar (c : Char) : List Char :=
  if c = '\x00' then ['\\', '0']
  else if c = '\t' then ['\\', 't']
  else if c = '\r' then ['\\', 'r']
  else if c = '\n' then ['\\', 'n']
  else if c = '"' then ['\\', '"']
  else if c = '\\' then ['\\', '\\']
  else if isHidden c then ['\\', 'u', '{'] ++ codePointDigits c ++ ['}']
  else [c]

/-- The text in quotes. -/
def quoted (s : String) : String :=
  String.ofList (['"'] ++ s.toList.flatMap quotedChar ++ ['"'])

end Text

end ContentDecryption
