import SexprCalls.CommandLine.Dump
import SexprCalls.CommandLine.Help
import SexprCalls.CommandLine.Report

/-!
# Running a command

What each request writes, given the files and the standard input.
-/

namespace SexprCalls.CommandLine

/-- What a command can see: the version of the program, the files, and the
standard input. -/
structure Surroundings where
  version : Bytes
  files : Files
  stdin : Bytes

namespace Surroundings

/-- The bytes of a named source; a dash names the standard input. -/
def source (surroundings : Surroundings) (path : Bytes) :
    Except CommandError Bytes :=
  if path = [dash] then
    .ok surroundings.stdin
  else
    match surroundings.files.contents path with
    | .ok data => .ok data
    | .error error => .error (.compilation (.unreadable path error))

end Surroundings

/-- Compile a source and show a part of the result. -/
def showCompilation (options : Options) (file source : Bytes)
    (text : Compilation → Bytes) : Outcome :=
  let (events, result) := options.compiler.run file source
  let log := events.flatMap (Log.consoleLine file)
  match result with
  | .ok compilation => ⟨.ok (), text compilation, log⟩
  | .error (.error error) => ⟨.error (.error (.compilation error)), [], log⟩
  | .error .crash => ⟨.error .crash, [], log⟩

def outputLine (compilation : Compilation) : Bytes :=
  compilation.output ++ [Bytes.newline]

def emitFile (surroundings : Surroundings) (options : Options) (path : Bytes) :
    Outcome :=
  match surroundings.source path with
  | .error error => .failure error
  | .ok source => showCompilation options path source outputLine

/-- Compile expressions given as arguments, with a space between two of them. -/
def evalExpressions (options : Options) (expressions : List Bytes) : Outcome :=
  showCompilation options [] (List.intercalate [0x20] expressions) outputLine

/-- A line on a token: its line, its column and its description. -/
def tokenLine (token : Token) : Bytes :=
  Bytes.ofInt token.pos.line ++ Bytes.ofString ":" ++
    Bytes.ofInt token.pos.column ++ Bytes.ofString "\t" ++ token.describe ++
    [Bytes.newline]

def listTokens (surroundings : Surroundings) (path : Bytes) : Outcome :=
  match surroundings.source path with
  | .error error => .failure error
  | .ok source =>
      match Token.ofSource path source with
      | .error error => .failure (.compilation (.lex error))
      | .ok tokens => .success (tokens.flatMap tokenLine)

/-- Dump the source tree or the output tree of a named source. -/
def dumpTree (surroundings : Surroundings) (options : Options) (path : Bytes) :
    Outcome :=
  match surroundings.source path with
  | .error error => .failure error
  | .ok source =>
      showCompilation options path source fun compilation =>
        if options.target then
          Dump.target compilation.target
        else
          Dump.source compilation.source

/-- The paths whose status a request asks for. -/
def Request.targets : Request → List Bytes
  | .check targets => targets
  | _ => []

/-- The paths whose bytes a request asks for, given the status of its
targets. -/
def Request.sources (files : Files) : Request → List Bytes
  | .emit path => [path]
  | .tokens path => [path]
  | .tree path => [path]
  | .check targets =>
      match collect files targets with
      | .ok paths => paths
      | .error _ => []
  | _ => []

def Request.readsInput : Request → Bool
  | .emit path => path = [dash]
  | .tokens path => path = [dash]
  | .tree path => path = [dash]
  | _ => false

def Request.run (surroundings : Surroundings) (options : Options) :
    Request → Outcome
  | .misuse error =>
      { result := .error (.error (.misuse error))
        stdout := helpText surroundings.version
        stderr :=
          Bytes.ofString "Incorrect Usage: " ++ error.message ++
            Bytes.ofString "\n\n" }
  | .help => .success (helpText surroundings.version)
  | .noTopic topic => .failure (.noTopic topic)
  | .version =>
      .success
        (Bytes.ofString "sexpc version " ++ surroundings.version ++
          [Bytes.newline])
  | .incomplete command => .failure (.incomplete command)
  | .emit path => emitFile surroundings options path
  | .eval expressions => evalExpressions options expressions
  | .tokens path => listTokens surroundings path
  | .tree path => dumpTree surroundings options path
  | .check targets => checkTargets options.compiler surroundings.files targets

def run (surroundings : Surroundings) (arguments : List Bytes) : Outcome :=
  let (options, request) :=
    Request.ofArguments (!surroundings.version.isEmpty) arguments
  request.run surroundings options

end SexprCalls.CommandLine
