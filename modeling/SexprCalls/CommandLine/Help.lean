import SexprCalls.Text.Columns

/-!
# Help

The text that describes the program.  Tabs divide the flags from what they do,
and the whole text, with a version of any form in it, is set out in columns.
-/

namespace SexprCalls.CommandLine

/-- The lines of the help before the version. -/
def helpOpening : List String :=
  ["NAME:",
   "   sexpc - Translate s-expressions into C-style function calls",
   "",
   "USAGE:",
   "   sexpc [global options] [command [command options]]",
   ""]

/-- The lines of the help after the version. -/
def helpOverview : List String :=
  ["COMMANDS:",
   "   emit     Print the translation of a file (- reads stdin)",
   "   eval     Translate an expression given on the command line",
   "   tokens   Print the token stream of a file",
   "   ast      Dump the syntax tree of a file",
   "   check    Translate every .sexp file and report failures",
   "   help, h  Shows a list of commands or help for one command",
   "",
   "GLOBAL OPTIONS:",
   "   --debug\tLog every compilation stage to stderr",
   "   --max-depth int\tReject programs whose calls nest deeper than this (0 disables) (default: 0)",
   "   --no-color, -C\tDisable ANSI color output",
   "   --help, -h\tshow help"]

/-- The lines that show the version, which is left out when it is empty. -/
def helpVersion (version : Bytes) : List Bytes :=
  if version.isEmpty then
    []
  else
    [Bytes.ofString "VERSION:", Bytes.ofString "   " ++ version, []]

def helpVersionFlag (version : Bytes) : List Bytes :=
  if version.isEmpty then
    []
  else
    [Bytes.ofString "   --version, -v\tprint the version"]

def helpText (version : Bytes) : Bytes :=
  let lines :=
    helpOpening.map Bytes.ofString ++ helpVersion version ++
      helpOverview.map Bytes.ofString ++ helpVersionFlag version
  Text.Columns.setOut (lines.flatMap (· ++ [Bytes.newline]))

end SexprCalls.CommandLine
