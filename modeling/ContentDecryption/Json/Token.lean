/-!
# JSON tokens

The words of a JSON text. The lexer reads one character at a time and keeps in its
state what the current word still needs, so one pass over the text is enough.

A string may hold escapes that name no character (half of a surrogate pair without
the other half). Such a string is still a string, and can be skipped; it has no
value. A number has a value here only when it is a plain count that fits in 64
bits: no sign, no fraction, no exponent.
-/

namespace ContentDecryption

namespace Json

/-- A word of a JSON text. -/
inductive Token
  | openArray
  | closeArray
  | openObject
  | closeObject
  | comma
  | colon
  | null
  | bool (value : Bool)
  | number (count : Option Nat)
  | string (value : Option String)
  deriving Repr, DecidableEq

/-! ## Strings -/

/-- A piece of a string: a character, or the code unit of an escape. -/
inductive Piece
  | char (c : Char)
  | unit (n : Nat)
  deriving Repr, DecidableEq

/-- Whether a code unit starts a surrogate pair. -/
def isLead (n : Nat) : Bool := decide (0xD800 ≤ n) && decide (n ≤ 0xDBFF)

/-- Whether a code unit ends a surrogate pair. -/
def isTrail (n : Nat) : Bool := decide (0xDC00 ≤ n) && decide (n ≤ 0xDFFF)

/-- The character of a surrogate pair. -/
def pairChar (lead trail : Nat) : Char :=
  Char.ofNat (0x10000 + (lead - 0xD800) * 0x400 + (trail - 0xDC00))

/-- The characters of a string, if every escape has a meaning. -/
def charsOfPieces : List Piece → Option (List Char)
  | [] => some []
  | .char c :: rest => (charsOfPieces rest).map (c :: ·)
  | .unit n :: .unit m :: rest =>
    if isLead n then
      if isTrail m then (charsOfPieces rest).map (pairChar n m :: ·) else none
    else if isTrail n then none
    else (charsOfPieces (.unit m :: rest)).map (Char.ofNat n :: ·)
  | .unit n :: rest =>
    if isLead n || isTrail n then none else (charsOfPieces rest).map (Char.ofNat n :: ·)

/-- The text of a string, if every escape has a meaning. -/
def textOfPieces (pieces : List Piece) : Option String :=
  (charsOfPieces pieces).map String.ofList

/-- The value of a hexadecimal digit. -/
def hexValue? (c : Char) : Option Nat :=
  if '0' ≤ c ∧ c ≤ '9' then some (c.toNat - 48)
  else if 'a' ≤ c ∧ c ≤ 'f' then some (c.toNat - 87)
  else if 'A' ≤ c ∧ c ≤ 'F' then some (c.toNat - 55)
  else none

/-- The character that a one-letter escape names. -/
def letterEscape? (c : Char) : Option Char :=
  if c = '"' ∨ c = '\\' ∨ c = '/' then some c
  else if c = 'b' then some '\x08'
  else if c = 'f' then some '\x0c'
  else if c = 'n' then some '\n'
  else if c = 'r' then some '\r'
  else if c = 't' then some '\t'
  else none

/-! ## The lexer -/

/-- Where in a number the lexer stands. -/
inductive NumberPart
  /-- after the sign -/
  | sign
  /-- after a leading zero, which no digit may follow -/
  | zero
  | digits
  | point
  | fraction
  | exponentMark
  | exponentSign
  | exponent
  deriving Repr, DecidableEq

namespace NumberPart

/-- Whether a number may end here. -/
def isComplete : NumberPart → Bool
  | zero => true
  | digits => true
  | fraction => true
  | exponent => true
  | _ => false

/-- The part that a further character leads to, if the number can go on with it. -/
def next? (p : NumberPart) (c : Char) : Option NumberPart :=
  match p with
  | sign => if c = '0' then some zero else if c.isDigit then some digits else none
  | zero =>
    if c = '.' then some point else if c = 'e' ∨ c = 'E' then some exponentMark else none
  | digits =>
    if c.isDigit then some digits
    else if c = '.' then some point
    else if c = 'e' ∨ c = 'E' then some exponentMark
    else none
  | point => if c.isDigit then some fraction else none
  | fraction =>
    if c.isDigit then some fraction else if c = 'e' ∨ c = 'E' then some exponentMark else none
  | exponentMark =>
    if c = '+' ∨ c = '-' then some exponentSign else if c.isDigit then some exponent else none
  | exponentSign => if c.isDigit then some exponent else none
  | exponent => if c.isDigit then some exponent else none

end NumberPart

/-- What the lexer is in the middle of. -/
inductive Lexing
  /-- between two words -/
  | between
  /-- in a string, whose pieces so far are kept last first -/
  | string (pieces : List Piece)
  /-- in a string, after a backslash -/
  | escape (pieces : List Piece)
  /-- in a string, with `left` digits of an escape to come -/
  | unicode (pieces : List Piece) (left value : Nat)
  /-- in a number; `count` is its value while it is a plain count -/
  | number (part : NumberPart) (count : Option Nat)
  /-- in a word with these characters still to come -/
  | word (rest : List Char) (token : Token)
  deriving Repr, DecidableEq

/-- The lexer: what it is in the middle of, and the words so far, last first. -/
structure Lexer where
  lexing : Lexing := .between
  tokens : List Token := []
  deriving Repr, DecidableEq

namespace Lexer

/-- The characters that may stand between two words. -/
def isSpace (c : Char) : Bool := c == ' ' || c == '\n' || c == '\t' || c == '\r'

/-- A character between two words. -/
def start (tokens : List Token) (c : Char) : Option Lexer :=
  if isSpace c then some ⟨.between, tokens⟩
  else if c = '[' then some ⟨.between, .openArray :: tokens⟩
  else if c = ']' then some ⟨.between, .closeArray :: tokens⟩
  else if c = '{' then some ⟨.between, .openObject :: tokens⟩
  else if c = '}' then some ⟨.between, .closeObject :: tokens⟩
  else if c = ',' then some ⟨.between, .comma :: tokens⟩
  else if c = ':' then some ⟨.between, .colon :: tokens⟩
  else if c = '"' then some ⟨.string [], tokens⟩
  else if c = '-' then some ⟨.number .sign none, tokens⟩
  else if c = '0' then some ⟨.number .zero (some 0), tokens⟩
  else if c.isDigit then some ⟨.number .digits (some (c.toNat - 48)), tokens⟩
  else if c = 'n' then some ⟨.word ['u', 'l', 'l'] .null, tokens⟩
  else if c = 't' then some ⟨.word ['r', 'u', 'e'] (.bool true), tokens⟩
  else if c = 'f' then some ⟨.word ['a', 'l', 's', 'e'] (.bool false), tokens⟩
  else none

/-- The least number that is too large for a count. -/
def countBound : Nat := 18446744073709551616

/-- The value of a number after a further character, while it is a plain count. -/
def extend (count : Option Nat) (part : NumberPart) (c : Char) : Option Nat :=
  match part, count with
  | .digits, some n =>
    let n' := 10 * n + (c.toNat - 48)
    if n' < countBound then some n' else none
  | _, _ => none

/-- Reads one character; there is no next state where no JSON text goes on so. -/
def step (l : Lexer) (c : Char) : Option Lexer :=
  match l.lexing with
  | .between => start l.tokens c
  | .string pieces =>
    if c = '"' then some ⟨.between, .string (textOfPieces pieces.reverse) :: l.tokens⟩
    else if c = '\\' then some ⟨.escape pieces, l.tokens⟩
    else if c.toNat < 32 then none
    else some ⟨.string (.char c :: pieces), l.tokens⟩
  | .escape pieces =>
    if c = 'u' then some ⟨.unicode pieces 4 0, l.tokens⟩
    else (letterEscape? c).map fun e => ⟨.string (.char e :: pieces), l.tokens⟩
  | .unicode pieces left value =>
    match hexValue? c with
    | none => none
    | some d =>
      let value := 16 * value + d
      if left ≤ 1 then some ⟨.string (.unit value :: pieces), l.tokens⟩
      else some ⟨.unicode pieces (left - 1) value, l.tokens⟩
  | .number part count =>
    match part.next? c with
    | some part' => some ⟨.number part' (extend count part' c), l.tokens⟩
    | none => if part.isComplete then start (.number count :: l.tokens) c else none
  | .word [] _ => none
  | .word [last] token => if c = last then some ⟨.between, token :: l.tokens⟩ else none
  | .word (expected :: rest) token =>
    if c = expected then some ⟨.word rest token, l.tokens⟩ else none

/-- The words of a text that ends here. -/
def finish (l : Lexer) : Option (List Token) :=
  match l.lexing with
  | .between => some l.tokens.reverse
  | .number part count =>
    if part.isComplete then some (.number count :: l.tokens).reverse else none
  | _ => none

end Lexer

/-- The words of a text. -/
def tokens? (text : String) : Option (List Token) :=
  (text.toList.foldlM Lexer.step {}).bind Lexer.finish

end Json

end ContentDecryption
