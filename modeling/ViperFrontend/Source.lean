/-
# Sources

A source is the text of a file under the name that diagnostics give it: the last component
of the path it was read from.

Key definitions: `Source`, `Source.nameOfPath`, `Source.ofBytes`, `ReadFailure`.
-/
namespace Viper

/-- A named text. -/
structure Source where
  name : String
  content : String
deriving DecidableEq, Repr, Inhabited

/-- Why a file cannot be read as a source. -/
inductive ReadFailure where
  /-- there is no such file -/
  | notFound
  /-- its bytes are not the UTF-8 encoding of a text -/
  | invalidData
  /-- the system gives another reason -/
  | other (reason : String)
deriving DecidableEq, Repr, Inhabited

/-- The reason in words. -/
def ReadFailure.message : ReadFailure → String
  | .notFound => "No such file or directory (os error 2)"
  | .invalidData => "stream did not contain valid UTF-8"
  | .other reason => reason

namespace Source

/-- The last component of a path. The empty components and `.` name no step; if what is left
names no file, the whole path is the name. -/
def nameOfPath (path : String) : String :=
  match ((path.splitOn "/").filter fun part => part ≠ "" ∧ part ≠ ".").getLast? with
  | none | some ".." => path
  | some name => name

/-- The source with the given bytes at a path. -/
def ofBytes (path : String) (bytes : ByteArray) : Except ReadFailure Source :=
  match String.fromUTF8? bytes with
  | some content => .ok ⟨nameOfPath path, content⟩
  | none => .error .invalidData

end Source
end Viper
