import ContentDecryption.Bytes

/-!
# Arguments

The values that a line of a journal is made of.
-/

namespace ContentDecryption

/-- A value in a line of a journal. -/
inductive Argument
  | text (s : String)
  | number (n : Int)
  | bytes (b : Bytes)
  | flag (b : Bool)
  | list (l : List Argument)
  deriving Repr

end ContentDecryption
