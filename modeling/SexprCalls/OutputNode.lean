import SexprCalls.Bytes

/-!
# Output trees

The tree of an output in the C style of calls: statements around calls, calls
with a callee and arguments, identifiers and literals.  As in source trees, a
place may hold no node, announce one that is not there, or hold a node of a
foreign type.
-/

namespace SexprCalls

/-- The node types of an output tree. -/
inductive OutputShape where
  | program
  | statement
  | call
  | identifier
  | number
  | string
deriving DecidableEq, Repr

/-- The name under which a node type shows in messages. -/
def OutputShape.typeName : OutputShape → Bytes
  | .program => Bytes.ofString "*compiler.CProgram"
  | .statement => Bytes.ofString "*compiler.CExprStmt"
  | .call => Bytes.ofString "*compiler.CCallExpr"
  | .identifier => Bytes.ofString "*compiler.CIdent"
  | .number => Bytes.ofString "*compiler.CNumberLit"
  | .string => Bytes.ofString "*compiler.CStringLit"

/-- A node of an output tree.  A call may lack its callee. -/
inductive OutputNode where
  | program (body : List OutputNode)
  | statement (expression : OutputNode)
  | call (callee : Option Bytes) (arguments : List OutputNode)
  | identifier (name : Bytes)
  | number (value : Bytes)
  | string (value : Bytes)
  | absent
  | vacant (shape : OutputShape)
  | foreign (typeName : Bytes)
deriving Repr

instance : Inhabited OutputNode := ⟨.absent⟩

def OutputNode.typeName : OutputNode → Bytes
  | .program _ => OutputShape.program.typeName
  | .statement _ => OutputShape.statement.typeName
  | .call _ _ => OutputShape.call.typeName
  | .identifier _ => OutputShape.identifier.typeName
  | .number _ => OutputShape.number.typeName
  | .string _ => OutputShape.string.typeName
  | .absent => Bytes.ofString "<nil>"
  | .vacant shape => shape.typeName
  | .foreign name => name

end SexprCalls
