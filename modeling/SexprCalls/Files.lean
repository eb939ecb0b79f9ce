import SexprCalls.FileError

/-!
# Files

What a command may ask of a file system: the status of a path, and the bytes of
a file.
-/

namespace SexprCalls

/-- What stands at a path: a file, or a directory with the names of its entries
in increasing order, each with whether it is a directory itself. -/
inductive FileStatus where
  | file
  | directory (entries : List (Bytes × Bool))
deriving DecidableEq, Repr

/-- A file system, by its answers. -/
structure Files where
  status : Bytes → Except FileError FileStatus
  contents : Bytes → Except FileError Bytes

end SexprCalls
