import ContentDecryption.Json.Token

/-!
# JSON values

A JSON text as a value. Values nest to any depth: the parser keeps the open arrays
and objects on a stack of its own and reads one word at a time.
-/

namespace ContentDecryption

namespace Json

/-- A JSON value. Numbers and strings are kept as the tokens have them. -/
inductive Value
  | null
  | bool (value : Bool)
  | number (count : Option Nat)
  | string (value : Option String)
  | array (items : List Value)
  | object (fields : List (Option String × Value))

/-- An array or object that is not closed yet; its parts are kept last first. -/
inductive Frame
  | array (items : List Value)
  | object (fields : List (Option String × Value)) (key : Option String)

/-- What may come next. -/
inductive Expected
  | value
  /-- the first element of an array, or its end -/
  | valueOrEnd
  | key
  /-- the first key of an object, or its end -/
  | keyOrEnd
  | colon
  /-- a comma, or the end of the innermost array or object -/
  | commaOrEnd
  /-- the text is complete -/
  | nothing (result : Value)

/-- The parser: what may come next, and what is open, innermost first. -/
structure Parser where
  expected : Expected
  stack : List Frame

namespace Parser

/-- A complete value inside what is open. -/
def complete (stack : List Frame) (v : Value) : Parser :=
  match stack with
  | [] => ⟨.nothing v, []⟩
  | .array items :: outer => ⟨.commaOrEnd, .array (v :: items) :: outer⟩
  | .object fields key :: outer => ⟨.commaOrEnd, .object ((key, v) :: fields) none :: outer⟩

/-- A word where a value may start. -/
def startValue (stack : List Frame) : Token → Option Parser
  | .null => some (complete stack .null)
  | .bool b => some (complete stack (.bool b))
  | .number n => some (complete stack (.number n))
  | .string s => some (complete stack (.string s))
  | .openArray => some ⟨.valueOrEnd, .array [] :: stack⟩
  | .openObject => some ⟨.keyOrEnd, .object [] none :: stack⟩
  | _ => none

/-- A word where a key may stand. -/
def startKey : List Frame → Token → Option Parser
  | .object fields _ :: outer, .string key => some ⟨.colon, .object fields key :: outer⟩
  | _, _ => none

/-- A word that ends the innermost array or object. -/
def close : List Frame → Token → Option Parser
  | .array items :: outer, .closeArray => some (complete outer (.array items.reverse))
  | .object fields _ :: outer, .closeObject => some (complete outer (.object fields.reverse))
  | _, _ => none

/-- Reads one word; there is no next state where no JSON text goes on so. -/
def step (p : Parser) (t : Token) : Option Parser :=
  match p.expected with
  | .value => startValue p.stack t
  | .valueOrEnd => if t = .closeArray then close p.stack t else startValue p.stack t
  | .key => startKey p.stack t
  | .keyOrEnd => if t = .closeObject then close p.stack t else startKey p.stack t
  | .colon => if t = .colon then some ⟨.value, p.stack⟩ else none
  | .commaOrEnd =>
    match t, p.stack with
    | .comma, .array _ :: _ => some ⟨.value, p.stack⟩
    | .comma, .object _ _ :: _ => some ⟨.key, p.stack⟩
    | _, _ => close p.stack t
  | .nothing _ => none

/-- The value of a text that ends here. -/
def finish (p : Parser) : Option Value :=
  match p.expected with
  | .nothing v => some v
  | _ => none

end Parser

/-- The value that a text denotes; none if it is no JSON text. -/
def parse? (text : String) : Option Value :=
  match tokens? text with
  | none => none
  | some tokens => (tokens.foldlM Parser.step ⟨.value, []⟩).bind Parser.finish

end Json

end ContentDecryption
