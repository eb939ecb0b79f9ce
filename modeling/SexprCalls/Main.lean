import SexprCalls.CommandLine.Run

/-!
# The program

The outer layer: it fetches the files and the input that the arguments ask for,
runs the command on them, and writes what the command gives back.
-/

namespace SexprCalls.Shell

def version : Bytes := Bytes.ofString "v0.1.0"

/-- A path as the operating system takes it. -/
def pathName (path : Bytes) : String :=
  (String.fromUTF8? ⟨path.toArray⟩).getD ""

/-- The reason that the operating system gives. -/
def problem : IO.Error → FileProblem
  | .inappropriateType .. => .notDirectory
  | .invalidArgument .. => .invalidName
  | .permissionDenied .. => .denied
  | _ => .missing

def contents (path : Bytes) : IO (Except FileError Bytes) := do
  try
    let place ← IO.FS.realPath (pathName path)
    if ← place.isDir then
      return .error ⟨.reading, path, .isDirectory⟩
    let data ← IO.FS.readBinFile (pathName path)
    return .ok data.toList
  catch error =>
    return .error ⟨.opening, path, problem error⟩

def status (path : Bytes) : IO (Except FileError FileStatus) := do
  try
    let place ← IO.FS.realPath (pathName path)
    if ← place.isDir then
      let entries ← (← place.readDir).toList.mapM fun entry => do
        return (Bytes.ofString entry.fileName, ← entry.path.isDir)
      return .ok (.directory
        (entries.mergeSort fun first second => first.1 ≤ second.1))
    let _ ← place.metadata
    return .ok .file
  catch error =>
    return .error ⟨.status, path, problem error⟩

/-- The answers for paths that have been asked for. -/
def answers {α : Type} (request : FileRequest)
    (known : List (Bytes × Except FileError α)) (path : Bytes) :
    Except FileError α :=
  (known.lookup path).getD (.error ⟨request, path, .missing⟩)

/-- Everything that can be read from a stream. -/
partial def drain (stream : IO.FS.Stream) (read : Bytes) : IO Bytes := do
  let chunk ← stream.read 65536
  if chunk.isEmpty then
    return read
  drain stream (read ++ chunk.toList)

/-- Fetch what a request asks for. -/
def surroundings (request : CommandLine.Request) :
    IO CommandLine.Surroundings := do
  let statuses ← request.targets.mapM fun path => do
    return (path, ← status path)
  let listed : Files :=
    { status := answers .status statuses
      contents := fun path => .error ⟨.opening, path, .missing⟩ }
  let sources ← (request.sources listed).mapM fun path => do
    return (path, ← contents path)
  let stdin ←
    if request.readsInput then drain (← IO.getStdin) [] else pure []
  return {
    version := version
    files := { listed with contents := answers .opening sources }
    stdin := stdin
  }

end SexprCalls.Shell

open SexprCalls in
def main (arguments : List String) : IO UInt32 := do
  let (options, request) :=
    CommandLine.Request.ofArguments true (arguments.map Bytes.ofString)
  let outcome := request.run (← Shell.surroundings request) options
  let (exitCode, stdout, stderr) := outcome.toProcess
  (← IO.getStdout).write ⟨stdout.toArray⟩
  (← IO.getStderr).write ⟨stderr.toArray⟩
  return exitCode
