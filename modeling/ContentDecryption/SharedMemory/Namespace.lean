import ContentDecryption.Error
import ContentDecryption.SharedMemory.Object

/-!
# The names of shared memory

Objects are made and found by name. A name is a path of one part: slashes in front
of it do not count, a slash inside it is refused, and it ends at its first zero
byte, so it may hold none. The two names for directories name no object. Removing a
name leaves the object to those who have it mapped; the name may then be given to
another object.

Objects are numbered in the order of their making, and a mapping keeps the number.
-/

namespace ContentDecryption

/-- All objects of shared memory and the names that lead to them. -/
structure SharedMemory where
  objects : List SharedObject := []
  /-- The name of each object that has one, and the object's number. -/
  names : List (String × Nat) := []
  /-- The largest object that may be made now. -/
  sizeLimit : Option Nat := none
  deriving Repr

namespace SharedMemory

open SystemError

/-- The longest name that an object can have, in bytes. -/
def maxNameLength : Nat := 255

/-- The longest name that is looked up at all: it leaves room for a mark of four bytes. -/
def maxPathLength : Nat := 259

/-- The name by which an object is kept, if `name` can name one. -/
def pathOf (name : String) : Except Error String :=
  let bytes := Bytes.ofText name
  if bytes.contains 0 then .error (.embeddedNul (bytes.idxOf 0))
  else
    let path := String.ofList (name.toList.dropWhile (fun c => c == '/'))
    if path.isEmpty || path.toList.contains '/' || decide (maxPathLength < path.utf8ByteSize) then
      .error (.system invalidArgument)
    else if maxNameLength < path.utf8ByteSize then .error (.system nameTooLong)
    else .ok path

/-- Whether a name is that of a directory, which is there but is no object. -/
def isDirectory (path : String) : Bool := path == "." || path == ".."

/-- The object that a name leads to. -/
def find? (m : SharedMemory) (name : String) : Option Nat :=
  match pathOf name with
  | .ok path => m.names.lookup path
  | .error _ => none

/-- The object with a number. -/
def object? (m : SharedMemory) (i : Nat) : Option SharedObject := m.objects[i]?

/-- The contents of an object, nothing where there is none. -/
def object (m : SharedMemory) (i : Nat) : SharedObject := m.objects.getD i ⟨0, []⟩

/-- Changes the contents of an object. -/
def setObject (m : SharedMemory) (i : Nat) (o : SharedObject) : SharedMemory :=
  { m with objects := m.objects.set i o }

/-- Puts a new object of zeros under a path. -/
def place (m : SharedMemory) (path : String) (size : Nat) : Nat × SharedMemory :=
  (m.objects.length,
    { m with
      objects := m.objects ++ [⟨size, []⟩]
      names := (path, m.objects.length) :: m.names.filter fun p => p.1 != path })

/-- Gives a path to the object that is made next. -/
def link (m : SharedMemory) (path : String) : SharedMemory :=
  { m with names := (path, m.objects.length) :: m.names.filter fun p => p.1 != path }

/-- Removes a name (the `drop` of `SharedMemory`). The object stays with those who have it
mapped. -/
def unlink (m : SharedMemory) (name : String) : SharedMemory :=
  match pathOf name with
  | .error _ => m
  | .ok path => { m with names := m.names.filter fun p => p.1 != path }

/-- Makes the next object, of zeros, as large as asked for, and maps it. -/
def provide (m : SharedMemory) (size : Nat) (mappable : Bool) :
    Except Error (Nat × SharedMemory) :=
  if m.sizeLimit.any (fun limit => limit < size) then .error (.system fileTooLarge)
  else if size = 0 then .error .invalidArg
  else if mappable then
    .ok (m.objects.length, { m with objects := m.objects ++ [⟨size, []⟩] })
  else .error (.system outOfMemory)

/-- Makes and maps an object under a name that is still free (`create`). `mappable` says whether
there is room for the mapping. The name is there first, and is taken back if no object of this size
can be made or mapped. -/
def create (m : SharedMemory) (name : String) (size : Nat) (mappable : Bool := true) :
    Except Error Nat × SharedMemory :=
  match pathOf name with
  | .error e => (.error e, m)
  | .ok path =>
    if (m.names.lookup path).isSome || isDirectory path then (.error (.system fileExists), m)
    else
      let linked := m.link path
      match linked.provide size mappable with
      | .error e => (.error e, linked.unlink name)
      | .ok (i, m') => (.ok i, m')

/-- Maps the object that a name leads to (`open`). `mappable` says whether there is room for the
mapping. -/
def attach (m : SharedMemory) (name : String) (mappable : Bool := true) : Except Error Nat :=
  match pathOf name with
  | .error e => .error e
  | .ok path =>
    match m.names.lookup path with
    | none => .error (.system (if isDirectory path then invalidArgument else notFound))
    | some i =>
      if (m.object i).size = 0 then .error .invalidArg
      else if mappable then .ok i
      else .error (.system outOfMemory)

end SharedMemory

end ContentDecryption
