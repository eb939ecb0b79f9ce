import SexprCalls.CommandLine.Arguments

/-!
# Outcomes

How a command ends: with success or a fault, and with what it has written.
-/

namespace SexprCalls.CommandLine

/-- A file that failed a check: its error, with the position taken out of it. -/
structure Failure where
  pos : Position
  error : Error
deriving Repr

namespace Failure

def message (failure : Failure) : Bytes :=
  if failure.pos.isKnown then
    failure.pos.text ++ Bytes.ofString ": " ++ failure.error.message
  else
    failure.error.message

/-- Whether a failure has the offset and the message of another one. -/
def repeats (failure previous : Failure) : Bool :=
  failure.pos.line ≠ 0 && failure.pos.offset = previous.pos.offset &&
    failure.error.message = previous.error.message

/-- The failures without those that have a place and repeat the last one kept
before them. -/
def withoutRepeats : (kept : Option Failure) → List Failure → List Failure
  | _, [] => []
  | kept, failure :: rest =>
      if kept.any failure.repeats then
        withoutRepeats kept rest
      else
        failure :: withoutRepeats (some failure) rest

/-- The wording of a list of failures, one to a line. -/
def messages (failures : List Failure) : Bytes :=
  List.intercalate [Bytes.newline]
    ((withoutRepeats none failures).map message)

end Failure

inductive CommandError where
  | compilation (error : Error)
  | misuse (error : UsageError)
  | noTopic (topic : Bytes)
  | incomplete (command : Command)
  | inaccessible (target : Bytes) (error : FileError)
  | noSources
  | failures (list : List Failure)
deriving Repr

def Command.usage : Command → Bytes
  | .emit => Bytes.ofString "emit <file.sexp>"
  | .eval => Bytes.ofString "eval <expr>..."
  | .tokens => Bytes.ofString "tokens <file.sexp>"
  | .tree => Bytes.ofString "ast [--target] <file.sexp>"
  | .check => Bytes.ofString "check [file.sexp | directory]..."
  | .help => Bytes.ofString "help [command]"

namespace CommandError

def message : CommandError → Bytes
  | .compilation error => error.message
  | .misuse error => error.message
  | .noTopic topic =>
      Bytes.ofString "No help topic for '" ++ topic ++ Bytes.ofString "'"
  | .incomplete command => Bytes.ofString "usage: sexpc " ++ command.usage
  | .inaccessible target error =>
      Bytes.ofString "cannot access " ++ target ++ Bytes.ofString ": " ++
        error.message
  | .noSources =>
      Bytes.ofString "no " ++ Request.sourceEnding ++
        Bytes.ofString " files found"
  | .failures list => Failure.messages list

/-- The causes that are found in an error.  A list of failures is not looked
through. -/
def causes : CommandError → List Cause
  | .compilation error => error.causes
  | .inaccessible _ error => error.cause?.toList
  | _ => []

end CommandError

structure Outcome where
  result : Except (Fault CommandError) Unit
  stdout : Bytes
  stderr : Bytes
deriving Repr

namespace Outcome

def success (stdout : Bytes) : Outcome :=
  ⟨.ok (), stdout, []⟩

def failure (error : CommandError) : Outcome :=
  ⟨.error (.error error), [], []⟩

/-- What a process shows of a command: its exit code and its two outputs, with
the error at the end of the second. -/
def toProcess (outcome : Outcome) : UInt32 × Bytes × Bytes :=
  match outcome.result with
  | .ok () => (0, outcome.stdout, outcome.stderr)
  | .error (.error error) =>
      (1, outcome.stdout,
        outcome.stderr ++ Bytes.ofString "error: " ++ error.message ++
          [Bytes.newline])
  | .error .crash => (2, outcome.stdout, outcome.stderr)

end Outcome
end SexprCalls.CommandLine
