import ContentDecryption.Bytes

/-!
# JSON strings

A text as a JSON string. Only what JSON requires is escaped: quotes, backslashes
and the characters below the space, five of which have a letter of their own.
-/

namespace ContentDecryption

namespace Json

/-- One character of a JSON string. -/
def quotedChar (c : Char) : List Char :=
  if c = '"' then ['\\', '"']
  else if c = '\\' then ['\\', '\\']
  else if c = '\n' then ['\\', 'n']
  else if c = '\r' then ['\\', 'r']
  else if c = '\t' then ['\\', 't']
  else if c = '\x08' then ['\\', 'b']
  else if c = '\x0c' then ['\\', 'f']
  else if c.toNat < 32 then
    ['\\', 'u', '0', '0', Bytes.hexDigit (c.toNat / 16), Bytes.hexDigit c.toNat]
  else [c]

/-- The text as a JSON string. -/
def quoted (s : String) : String :=
  String.ofList (['"'] ++ s.toList.flatMap quotedChar ++ ['"'])

end Json

end ContentDecryption
