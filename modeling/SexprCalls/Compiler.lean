import SexprCalls.Files
import SexprCalls.Lowering
import SexprCalls.OutputNode.Print
import SexprCalls.SourceNode.Check

/-!
# Compilation

A compilation scans a source, reads its forms, checks their nesting, lowers
them and prints the result.  Each stage that succeeds reports an event; the
first that fails ends the compilation.
-/

namespace SexprCalls

/-- The report of a stage that has succeeded, with the size of its result. -/
inductive StageEvent where
  | tokenized (tokens : Nat)
  | parsed (forms : Nat)
  | lowered (statements : Nat)
  | rendered (bytes : Nat)
deriving DecidableEq, Repr

structure Compilation where
  tokens : List Token
  source : Program
  target : List OutputNode
  output : Bytes
deriving Repr

namespace Compilation

/-- The check of the nesting limit; a limit that is not positive needs none. -/
def checks (maxDepth : Int) : List Check :=
  if 0 < maxDepth then [Check.maxDepth maxDepth] else []

/-- Compile a source that is known under a name, and give the events of the
stages that have succeeded. -/
def run (maxDepth : Int) (file source : Bytes) :
    List StageEvent × Except (Fault Error) Compilation :=
  match Token.ofSource file source with
  | .error error => ([], .error (.error (.lex error)))
  | .ok tokens =>
      let scanned := [StageEvent.tokenized tokens.length]
      match Program.ofTokens tokens with
      | .error error => (scanned, .error (.error (.parse error)))
      | .ok program =>
          let read := scanned ++ [.parsed program.length]
          match (Check.runAll program.toNode (checks maxDepth)).2 with
          | .error fault => (read, .error fault)
          | .ok () =>
              match SourceNode.lower (some (Form.toNodes program)) with
              | .error fault => (read, .error fault)
              | .ok target =>
                  let built := read ++ [.lowered target.length]
                  match (OutputNode.program target).render with
                  | .error fault => (built, .error fault)
                  | .ok output =>
                      (built ++ [.rendered output.length],
                        .ok ⟨tokens, program, target, output⟩)

end Compilation

/-- The levels of a log, from the one that shows most.  At the last one, and
where there is no log, nothing is shown. -/
inductive LogLevel where
  | trace
  | debug
  | info
  | warn
  | error
  | fatal
  | panic
  | unlevelled
  | off
deriving DecidableEq, Repr

namespace LogLevel

/-- The number of a level; an event is shown at the levels up to its own. -/
def number : LogLevel → Int
  | .trace => -1
  | .debug => 0
  | .info => 1
  | .warn => 2
  | .error => 3
  | .fatal => 4
  | .panic => 5
  | .unlevelled => 6
  | .off => 7

/-- Whether the events of the stages, which are for debugging, are shown. -/
def showsStages (level : LogLevel) : Bool :=
  level.number ≤ debug.number

end LogLevel

/-- The settings of a compilation. -/
structure Compiler where
  level : LogLevel := .off
  maxDepth : Int := 0
deriving DecidableEq, Repr

namespace Compiler

/-- Compile a source, and give the events that are logged. -/
def run (compiler : Compiler) (file source : Bytes) :
    List StageEvent × Except (Fault Error) Compilation :=
  let (events, result) := Compilation.run compiler.maxDepth file source
  (if compiler.level.showsStages then events else [], result)

/-- Compile a source to its text. -/
def compile (compiler : Compiler) (file source : Bytes) :
    List StageEvent × Except (Fault Error) Bytes :=
  let (events, result) := compiler.run file source
  (events, result.map Compilation.output)

def compileFile (compiler : Compiler) (files : Files) (path : Bytes) :
    List StageEvent × Except (Fault Error) Bytes :=
  match files.contents path with
  | .error error => ([], .error (.error (.unreadable path error)))
  | .ok source => compiler.compile path source

end Compiler

/-- The text that a source compiles to under no limit. -/
def compile (source : Bytes) : Except (Fault Error) Bytes :=
  (Compiler.compile {} [] source).2

end SexprCalls
