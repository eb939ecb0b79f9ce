import SexprCalls.Cause

/-!
# File errors

Why a file could not be read or looked up.
-/

namespace SexprCalls

/-- The reasons for which a path leads to no file that can be read. -/
inductive FileProblem where
  | missing
  | notDirectory
  | isDirectory
  | invalidName
  | denied
deriving DecidableEq, Repr

def FileProblem.text : FileProblem → Bytes
  | .missing => Bytes.ofString "no such file or directory"
  | .notDirectory => Bytes.ofString "not a directory"
  | .isDirectory => Bytes.ofString "is a directory"
  | .invalidName => Bytes.ofString "invalid argument"
  | .denied => Bytes.ofString "permission denied"

inductive FileRequest where
  | opening
  | reading
  | status
deriving DecidableEq, Repr

def FileRequest.text : FileRequest → Bytes
  | .opening => Bytes.ofString "open"
  | .reading => Bytes.ofString "read"
  | .status => Bytes.ofString "stat"

/-- A request that failed on a path. -/
structure FileError where
  request : FileRequest
  path : Bytes
  problem : FileProblem
deriving DecidableEq, Repr

namespace FileError

def message (error : FileError) : Bytes :=
  error.request.text ++ Bytes.ofString " " ++ error.path ++
    Bytes.ofString ": " ++ error.problem.text

/-- Only a missing file has a cause that callers can tell. -/
def cause? (error : FileError) : Option Cause :=
  if error.problem = .missing then some .missingFile else none

end FileError
end SexprCalls
