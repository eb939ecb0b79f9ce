import SexprCalls.Compiler
import SexprCalls.Text.Blank
import SexprCalls.Text.Integer

/-!
# Arguments

The arguments of the program are flags and positional arguments in any order.
The program itself reads them first; where the first positional argument names
a command, the command reads what follows it with its own flags.  The name of a
command ends the reading: it and all that follows are positional as written.
-/

namespace SexprCalls.CommandLine

inductive Command where
  | emit
  | eval
  | tokens
  | tree
  | check
  | help
deriving DecidableEq, Repr

namespace Command

/-- The names by which a command is called. -/
def names : Command → List Bytes
  | .emit => [Bytes.ofString "emit"]
  | .eval => [Bytes.ofString "eval"]
  | .tokens => [Bytes.ofString "tokens"]
  | .tree => [Bytes.ofString "ast"]
  | .check => [Bytes.ofString "check"]
  | .help => [Bytes.ofString "help", Bytes.ofString "h"]

def all : List Command :=
  [.emit, .eval, .tokens, .tree, .check, .help]

/-- The commands that a command has of its own. -/
def below : List Command := [.help]

def find? (commands : List Command) (name : Bytes) : Option Command :=
  commands.find? fun command => command.names.contains name

end Command

/-- The flags of the program and of its commands. -/
inductive Flag where
  | debug
  | maxDepth
  | noColor
  | help
  | version
  | target
  | jobs
deriving DecidableEq, Repr

namespace Flag

/-- The names by which a flag is set, without dashes. -/
def names : Flag → List Bytes
  | .debug => [Bytes.ofString "debug"]
  | .maxDepth => [Bytes.ofString "max-depth"]
  | .noColor => [Bytes.ofString "no-color", Bytes.ofString "C"]
  | .help => [Bytes.ofString "help", Bytes.ofString "h"]
  | .version => [Bytes.ofString "version", Bytes.ofString "v"]
  | .target => [Bytes.ofString "target", Bytes.ofString "t"]
  | .jobs => [Bytes.ofString "jobs", Bytes.ofString "j"]

/-- Whether a flag takes a number; the others are switches. -/
def takesNumber : Flag → Bool
  | .maxDepth => true
  | .jobs => true
  | _ => false

def find? (flags : List Flag) (name : Bytes) : Option Flag :=
  flags.find? fun flag => flag.names.contains name

/-- The flags that may also follow the name of a command. -/
def shared : List Flag := [.debug, .maxDepth, .noColor]

/-- The flags of the program itself; without a version there is none to ask
for. -/
def ofProgram (versioned : Bool) : List Flag :=
  shared ++ [.help] ++ if versioned then [.version] else []

/-- The flags of a command alone. -/
def ofCommand : Command → List Flag
  | .tree => [.target, .help]
  | .check => [.jobs, .help]
  | _ => [.help]

end Flag

/-- The values of all flags, and the flags that were given a value. -/
structure Options where
  debug : Bool := false
  maxDepth : Int := 0
  noColor : Bool := false
  help : Bool := false
  version : Bool := false
  target : Bool := false
  jobs : Int := 1
  given : List Flag := []
deriving DecidableEq, Repr

def Options.compiler (options : Options) : Compiler :=
  { level := if options.debug then .debug else .warn
    maxDepth := options.maxDepth }

/-- An argument list that cannot be read. -/
inductive UsageError where
  | undefinedFlag (name : Bytes)
  | missingValue (argument : Bytes)
  | invalidValue (value name reason : Bytes)
deriving DecidableEq, Repr

def UsageError.message : UsageError → Bytes
  | .undefinedFlag name =>
      Bytes.ofString "flag provided but not defined: -" ++ name
  | .missingValue argument =>
      Bytes.ofString "flag needs an argument: " ++ argument
  | .invalidValue value name reason =>
      Bytes.ofString "invalid value " ++ Text.quoted value ++
        Bytes.ofString " for flag -" ++ name ++ Bytes.ofString ": " ++ reason

namespace Options

def switch? (value : Bytes) : Option Bool :=
  if ["1", "t", "T", "TRUE", "true", "True"].any
      (Bytes.ofString · = value) then
    some true
  else if ["0", "f", "F", "FALSE", "false", "False"].any
      (Bytes.ofString · = value) then
    some false
  else
    none

def setSwitch (options : Options) (flag : Flag) (value : Bool) : Options :=
  match flag with
  | .debug => { options with debug := value }
  | .noColor => { options with noColor := value }
  | .help => { options with help := value }
  | .version => { options with version := value }
  | .target => { options with target := value }
  | .maxDepth => options
  | .jobs => options

def setNumber (options : Options) (flag : Flag) (value : Int) : Options :=
  match flag with
  | .maxDepth => { options with maxDepth := value }
  | .jobs => { options with jobs := value }
  | _ => options

def note (options : Options) (flag : Flag) : Options :=
  { options with given := flag :: options.given }

/-- Set a flag, under the name it was given, to a value as it was written. -/
def set (options : Options) (flag : Flag) (name value : Bytes) :
    Except UsageError Options :=
  if flag.takesNumber then
    match Text.Integer.read value with
    | .ok number => .ok ((options.setNumber flag number).note flag)
    | .error problem =>
        .error (.invalidValue value name
          (Bytes.ofString "strconv.ParseInt: parsing " ++ Text.quoted value ++
            Bytes.ofString ": " ++ problem.text))
  else
    match switch? value with
    | some switch => .ok ((options.setSwitch flag switch).note flag)
    | none =>
        .error (.invalidValue value name (Bytes.ofString "parse error"))

/-- Put an empty argument before a first one that has the name of a flag that
was given. -/
def shift (options : Options) (positionals : List Bytes) : List Bytes :=
  if (positionals.head?.bind (Flag.find? options.given)).isSome then
    [] :: positionals
  else
    positionals

end Options

/-- The byte that flags start with. -/
def dash : UInt8 := 0x2D

/-- The byte between the name and the value of a flag. -/
def equals : UInt8 := 0x3D

/-- The bytes that are letters when each byte is taken for the code of a
character. -/
def startsName (byte : UInt8) : Bool :=
  Bytes.isLetter byte || byte == 0xAA || byte == 0xB5 || byte == 0xBA ||
    (0xC0 ≤ byte && byte != 0xD7 && byte != 0xF7)

/-- What an argument without white space at its ends is. -/
inductive Argument where
  | blank
  | separator
  | word
  | dash
  | notFlag
  | flag (dashes : Nat) (name : Bytes) (value : Option Bytes)
deriving DecidableEq, Repr

/-- The name of a flag, and the value after an equals sign. -/
def splitValue (text : Bytes) : Bytes × Option Bytes :=
  match text.dropWhile (· != equals) with
  | [] => (text, none)
  | _ :: value => (text.takeWhile (· != equals), some value)

/-- A flag with its dashes taken off. -/
def flagArgument (dashes : Nat) (text : Bytes) : Argument :=
  let (name, value) := splitValue text
  .flag dashes name value

/-- What an argument without white space at its ends is. -/
def Argument.ofText : Bytes → Argument
  | [] => .blank
  | first :: rest =>
      if first ≠ CommandLine.dash then
        .word
      else
        match rest with
        | [] => .dash
        | second :: more =>
            if second = CommandLine.dash then
              if more.isEmpty then .separator else flagArgument 2 more
            else if startsName second then
              flagArgument 1 rest
            else
              .notFlag

/-- What a list of arguments may hold: flags with a name of their own, flags
whose letters may be joined after a single dash, and the names of commands. -/
structure Grammar where
  flags : List Flag
  letters : List Flag
  commands : List Command

namespace Grammar

def ofProgram (versioned : Bool) : Grammar :=
  ⟨Flag.ofProgram versioned, Flag.ofProgram versioned, Command.all⟩

/-- The grammar of the arguments that follow the name of a command. -/
def ofCommand (versioned : Bool) (command : Command) : Grammar :=
  ⟨Flag.ofCommand command ++ Flag.shared,
    Flag.ofCommand command ++ Flag.ofProgram versioned, Command.below⟩

/-- The value of a switch that is given none is the word for being on. -/
def switchValue (value : Option Bytes) : Bytes :=
  match value with
  | none => Bytes.ofString "true"
  | some given => if given.isEmpty then Bytes.ofString "true" else given

/-- Set the flags whose letters are joined in `name`.  A number can be given to
the last letter only: after an equals sign, or as the next argument. -/
def setLetters (grammar : Grammar) (name : Bytes) (value next : Option Bytes) :
    Options → List Bytes → Except UsageError Options
  | options, [] => .ok options
  | options, letter :: rest =>
      match Flag.find? grammar.letters letter with
      | none => .error (.undefinedFlag name)
      | some flag =>
          if !flag.takesNumber then do
            let options ← options.set flag name (switchValue value)
            setLetters grammar name value next options rest
          else if !rest.isEmpty then
            setLetters grammar name value next options rest
          else
            match (value.filter fun given => !given.isEmpty) <|> next with
            | none => .error (.missingValue letter)
            | some given => options.set flag name given

/-- Read arguments into options and positional arguments; those found so far
come latest first. -/
def readOnto (grammar : Grammar) (found : List Bytes) :
    Options → List Bytes → Except UsageError (Options × List Bytes)
  | options, [] => .ok (options, found.reverse)
  | options, argument :: rest =>
      let text := Text.trim argument
      match Argument.ofText text with
      | .blank => .ok (options, found.reverse)
      | .separator => .ok (options, found.reverse ++ rest)
      | .notFlag => .ok (options, found.reverse ++ argument :: rest)
      | .dash => .ok (options, (text :: found).reverse)
      | .word =>
          if (Command.find? grammar.commands text).isSome then
            .ok (options, found.reverse ++ argument :: rest)
          else
            readOnto grammar (text :: found) options rest
      | .flag dashes name value =>
          match Flag.find? grammar.flags name with
          | none =>
              if dashes = 1 then do
                let letters :=
                  (Text.Utf8.segments name).map Text.Utf8.Segment.bytes
                let options ←
                  grammar.setLetters name value rest.head? options letters
                readOnto grammar found options rest
              else
                .error (.undefinedFlag name)
          | some flag =>
              if !flag.takesNumber then do
                let options ← options.set flag name (switchValue value)
                readOnto grammar found options rest
              else
                match value, rest with
                | some [], _ => .error (.missingValue text)
                | some given, rest => do
                    let options ← options.set flag name given
                    readOnto grammar found options rest
                | none, [] => .error (.missingValue text)
                | none, given :: rest => do
                    let options ← options.set flag name given
                    readOnto grammar found options rest

def command? (grammar : Grammar) (positionals : List Bytes) : Option Command :=
  positionals.head?.bind (Command.find? grammar.commands)

def read (grammar : Grammar) (options : Options) (arguments : List Bytes) :
    Except UsageError (Options × List Bytes) :=
  grammar.readOnto [] options arguments

end Grammar

inductive Request where
  | misuse (error : UsageError)
  | help
  | noTopic (topic : Bytes)
  | version
  | incomplete (command : Command)
  | emit (path : Bytes)
  | eval (expressions : List Bytes)
  | tokens (path : Bytes)
  | tree (path : Bytes)
  | check (targets : List Bytes)
deriving DecidableEq, Repr

namespace Request

/-- The end of the names of source files. -/
def sourceEnding : Bytes := Bytes.ofString ".sexp"

def namesSource (name : Bytes) : Bool :=
  sourceEnding.isSuffixOf name

def forFirst (command : Command) (request : Bytes → Request) :
    List Bytes → Request
  | [] => .incomplete command
  | first :: _ => request first

/-- What a command with positional arguments asks for.  Without targets, a
check looks at the current directory. -/
def ofCommand (command : Command) (positionals : List Bytes) : Request :=
  match command with
  | .emit => forFirst .emit .emit positionals
  | .eval =>
      if positionals.isEmpty then .incomplete .eval else .eval positionals
  | .tokens => forFirst .tokens .tokens positionals
  | .tree => forFirst .tree .tree positionals
  | .check =>
      .check (if positionals.isEmpty then [Bytes.ofString "."] else positionals)
  | .help => .help

/-- What the program asks for without a command: the name of a source file
stands for its emission. -/
def ofPositionals : List Bytes → Request
  | [] => .help
  | first :: _ => if namesSource first then .emit first else .help

/-- What a call for help asks for: the first argument is its topic, which has to
be a command that the grammar knows. -/
def helpOn (grammar : Grammar) : List Bytes → Request
  | [] => .help
  | topic :: _ =>
      if topic.isEmpty || (Command.find? grammar.commands topic).isSome then
        .help
      else
        .noTopic topic

/-- What the arguments after the name of a command ask for.  The name of a
command of its own comes before that of a flag. -/
def afterCommand (grammar : Grammar) (command : Command) (options : Options)
    (positionals : List Bytes) : Request :=
  if options.help then
    helpOn grammar positionals
  else if (grammar.command? positionals).isSome then
    helpOn grammar positionals.tail
  else
    ofCommand command (options.shift positionals)

/-- What a list of arguments asks for, with the options it sets.  A call for
help comes before one for the version, and the arguments after the help command
are not read for flags. -/
def ofArguments (versioned : Bool) (arguments : List Bytes) :
    Options × Request :=
  let grammar := Grammar.ofProgram versioned
  match grammar.read {} arguments with
  | .error error => ({}, .misuse error)
  | .ok (options, positionals) =>
      if options.help then
        (options, helpOn grammar positionals)
      else if options.version then
        (options, .version)
      else
        match grammar.command? positionals with
        | none => (options, ofPositionals (options.shift positionals))
        | some .help => (options, helpOn grammar positionals.tail)
        | some command =>
            let grammar := Grammar.ofCommand versioned command
            match grammar.read { options with version := false }
                positionals.tail with
            | .error error => (options, .misuse error)
            | .ok (options, positionals) =>
                (options, afterCommand grammar command options positionals)

end Request
end SexprCalls.CommandLine
