import ContentDecryption.Error
import ContentDecryption.Bytes

/-!
# Transforms of clear samples

Where the path to the screen is protected, clear samples too have to be moved before
they can be shown. The platform does that in a library of its own, with a function
that changes the sample in place and returns zero on success.
-/

namespace ContentDecryption

/-- Prepares a clear sample (`SecureBufferTransform`). The sample may have changed even after a
failure. -/
abbrev ClearTransform := Bytes → Except Error Unit × Bytes

/-- The function of a platform library: what it returns, and the sample after it (`TransformFn`). -/
abbrev LibraryFunction := Bytes → Int × Bytes

/-- The libraries of the platform by path, each with its function if it has one. -/
abbrev Libraries := List (String × Option LibraryFunction)

namespace ClearTransform

/-- Leaves samples as they are (`NoopTransform`). -/
def identity : ClearTransform := fun data => (.ok (), data)

/-- The transform that a library offers (`DynamicTransform`). A sample whose length does not fit in
a word is refused. -/
def ofLibrary (f : LibraryFunction) : ClearTransform := fun data =>
  if 4294967296 ≤ data.length then (.error .invalidArg, data)
  else
    let (result, data) := f data
    (if result = 0 then .ok () else .error .fail, data)

/-- Loads a library (`load`, which looks for `TRANSFORM_SYMBOL`). It has to be there and to have the
function. -/
def load (libraries : Libraries) (path : String) : Except Error ClearTransform :=
  match libraries.lookup path with
  | some (some f) => .ok (ofLibrary f)
  | _ => .error .libraryLoading

end ClearTransform

end ContentDecryption
