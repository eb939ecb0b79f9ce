import SexprCalls.CommandLine.Outcome
import SexprCalls.Compiler.Log
import SexprCalls.Files.Path

/-!
# Checking many files

A check compiles every file that its targets name and reports on each of them.
The files are compiled independently of each other, so that the report does not
depend on how many are compiled at the same time.
-/

namespace SexprCalls

/-- The first error with a position in a chain, without the position, and the
position.  Lexical errors are looked for before parse errors.  An error in which
there is none gets the name of its file. -/
def Error.splitPosition (file : Bytes) (error : Error) : Position × Error :=
  match error.chain.findSome? lex? with
  | some found => (found.pos, .lex { found with pos := .unknown })
  | none =>
      match error.chain.findSome? parse? with
      | some ⟨cause, some token⟩ =>
          (token.pos, .parse ⟨cause, some { token with pos := .unknown }⟩)
      | _ => (.ofFile file, error)

namespace CommandLine

/-- The source files among the entries of a directory. -/
def sourcesIn (directory : Bytes) (entries : List (Bytes × Bool)) :
    List Bytes :=
  (entries.filter fun (name, isDirectory) =>
    !isDirectory && Request.namesSource name).map fun (name, _) =>
      Path.entry directory name

/-- The files that a target stands for: itself, or the source files directly
in it. -/
def targetFiles (files : Files) (target : Bytes) :
    Except CommandError (List Bytes) :=
  match files.status target with
  | .error error => .error (.inaccessible target error)
  | .ok .file => .ok [target]
  | .ok (.directory entries) => .ok (sourcesIn target entries)

/-- The files that targets stand for, in order, or the first target that
cannot be looked at. -/
def collect (files : Files) : List Bytes → Except CommandError (List Bytes)
  | [] => .ok []
  | target :: rest =>
      match targetFiles files target with
      | .error error => .error error
      | .ok found =>
          match collect files rest with
          | .error error => .error error
          | .ok more => .ok (found ++ more)

/-- A file and how its compilation ended. -/
structure Verdict where
  path : Bytes
  result : Except (Fault Error) Unit
deriving Repr

namespace Verdict

def error? (verdict : Verdict) : Option Error :=
  match verdict.result with
  | .error (.error error) => some error
  | _ => none

def text (verdict : Verdict) : Bytes :=
  match verdict.error? with
  | none => Bytes.ofString "ok   " ++ verdict.path ++ [Bytes.newline]
  | some error =>
      Bytes.ofString "FAIL " ++ verdict.path ++ [Bytes.newline] ++
        Bytes.ofString "     " ++ error.message ++ [Bytes.newline]

def failure? (verdict : Verdict) : Option Failure :=
  verdict.error?.map fun error =>
    let (pos, error) := error.splitPosition verdict.path
    ⟨pos, error⟩

end Verdict

def summary (total failed : Nat) : Bytes :=
  [Bytes.newline] ++ Bytes.ofNat total ++ Bytes.ofString " files, " ++
    Bytes.ofNat failed ++ Bytes.ofString " failed" ++ [Bytes.newline]

/-- The report on files, and the log of their compilation. -/
def report (verdicts : List Verdict) (log : Bytes) : Outcome :=
  let failures := verdicts.filterMap Verdict.failure?
  { result :=
      if verdicts.any fun verdict => verdict.result matches .error .crash then
        .error .crash
      else if failures.isEmpty then
        .ok ()
      else
        .error (.error (.failures failures))
    stdout :=
      verdicts.flatMap Verdict.text ++
        summary verdicts.length failures.length
    stderr := log }

/-- Compile a file for a check, and give the log of its compilation. -/
def judge (compiler : Compiler) (files : Files) (path : Bytes) :
    Verdict × Bytes :=
  let (events, result) := compiler.compileFile files path
  (⟨path, result.map fun _ => ()⟩, events.flatMap (Log.consoleLine path))

def checkTargets (compiler : Compiler) (files : Files) (targets : List Bytes) :
    Outcome :=
  match collect files targets with
  | .error error => .failure error
  | .ok [] => .failure .noSources
  | .ok paths =>
      let judged := paths.map (judge compiler files)
      report (judged.map fun (verdict, _) => verdict)
        (judged.flatMap fun (_, log) => log)

end CommandLine
end SexprCalls
