import SexprCalls.Form
import SexprCalls.OutputNode
import SexprCalls.Text.Quoted

/-!
# Dumping trees

The dump of a tree shows each node as a record of its type.  Records of literals
stand on one line, the others have a line for every field.  A reference to a
record lies one level above the record, and the elements of a list lie one
level below the record that holds the list; what lies more than ten levels deep
is cut off.
-/

namespace SexprCalls.CommandLine.Dump

def lowestLevel : Nat := 10

/-- What stands in place of a part below the deepest level. -/
def cutOff : Bytes := Bytes.ofString "!%v(DEPTH EXCEEDED)"

/-- A part at a level, unless the level is too deep. -/
def shown (level : Nat) (part : Unit → Bytes) : Bytes :=
  if lowestLevel < level then cutOff else part ()

/-- A reference at a level to a record one level below. -/
def reference (level : Nat) (record : Unit → Bytes) : Bytes :=
  shown level fun _ => Bytes.ofString "&" ++ shown (level + 1) record

def indent (depth : Nat) : Bytes :=
  List.replicate (4 * depth) 0x20

/-- Braces around indented lines, each of which ends in a comma. -/
def block (depth : Nat) (lines : List Bytes) : Bytes :=
  Bytes.ofString "\x7b\n" ++
    lines.flatMap (fun line =>
      indent (depth + 1) ++ line ++ Bytes.ofString ",\n") ++
    indent depth ++ Bytes.ofString "\x7d"

/-- A record with one text, on one line; an empty text is left out. -/
def literal (typeName label : String) (value : Bytes) : Bytes :=
  Bytes.ofString typeName ++ Bytes.ofString "\x7b" ++
    (if value.isEmpty then []
      else Bytes.ofString label ++ Bytes.ofString ":" ++ Text.quoted value) ++
    Bytes.ofString "\x7d"

/-- A record with a line for each of its fields. -/
def record (typeName : String) (depth : Nat) (fields : List Bytes) : Bytes :=
  Bytes.ofString typeName ++ block depth fields

/-- The record of a program with its elements on lines of their own. -/
def program (typeName : String) (elements : List Bytes) : Bytes :=
  Bytes.ofString "&" ++
    if elements.isEmpty then
      Bytes.ofString typeName ++ Bytes.ofString "\x7b\x7d"
    else
      record typeName 0 [Bytes.ofString "Body: " ++ block 1 elements]

mutual

def form (level depth : Nat) : Form → Bytes
  | .number value =>
      reference level fun _ => literal "ast.NumberLiteral" "Value" value
  | .string value =>
      reference level fun _ => literal "ast.StringLiteral" "Value" value
  | .call name params =>
      reference level fun _ =>
        record "ast.CallExpression" depth
          [Bytes.ofString "Name:   " ++ Text.quoted name,
           Bytes.ofString "Params: " ++
            if params.isEmpty then
              Bytes.ofString "nil"
            else
              block (depth + 1) (forms (level + 2) (depth + 2) params)]

def forms (level depth : Nat) : List Form → List Bytes
  | [] => []
  | first :: rest => form level depth first :: forms level depth rest

end

mutual

def output (level depth : Nat) : OutputNode → Bytes
  | .number value =>
      reference level fun _ => literal "compiler.CNumberLit" "Value" value
  | .string value =>
      reference level fun _ => literal "compiler.CStringLit" "Value" value
  | .identifier name =>
      reference level fun _ => literal "compiler.CIdent" "Name" name
  | .statement expression =>
      reference level fun _ =>
        record "compiler.CExprStmt" depth
          [Bytes.ofString "Expression: " ++
            output (level + 1) (depth + 1) expression]
  | .call callee arguments =>
      reference level fun _ =>
        record "compiler.CCallExpr" depth
          [Bytes.ofString "Callee:    " ++
            (match callee with
              | none => Bytes.ofString "nil"
              | some name =>
                  reference (level + 1) fun _ =>
                    literal "compiler.CIdent" "Name" name),
           Bytes.ofString "Arguments: " ++
            block (depth + 1) (outputs (level + 2) (depth + 2) arguments)]
  | .program body =>
      reference level fun _ =>
        record "compiler.CProgram" depth
          [Bytes.ofString "Body: " ++
            block (depth + 1) (outputs (level + 2) (depth + 2) body)]
  | .absent => Bytes.ofString "nil"
  | .vacant _ => Bytes.ofString "nil"
  | .foreign typeName => typeName

def outputs (level depth : Nat) : List OutputNode → List Bytes
  | [] => []
  | first :: rest => output level depth first :: outputs level depth rest

end

def source (forms : Program) : Bytes :=
  program "ast.Program" (Dump.forms 2 2 forms) ++ Bytes.ofString "\n"

def target (statements : List OutputNode) : Bytes :=
  program "compiler.CProgram" (outputs 2 2 statements) ++ Bytes.ofString "\n"

end SexprCalls.CommandLine.Dump
