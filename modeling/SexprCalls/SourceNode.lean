import SexprCalls.Form
import SexprCalls.FurtherKind

/-!
# Source trees

The tree of a program, open to nodes that no source spells: a place without a
node, a node that is announced and not there, and a node of a foreign type.
Programs may stand anywhere in such a tree.
-/

namespace SexprCalls

/-- The node types of a source tree. -/
inductive SourceShape where
  | program
  | call
  | number
  | string
deriving DecidableEq, Repr

/-- What a node says it is.  A foreign node may give any kind, also one that
this library does not have. -/
inductive NodeKind where
  | known (shape : SourceShape)
  | other (kind : FurtherKind)
deriving DecidableEq, Repr

namespace NodeKind

def ofCode : Int → NodeKind :=
  FurtherKind.orNamed .other
    (.known .program) (.known .call) (.known .number) (.known .string)

def text : NodeKind → Bytes
  | .known .program => Bytes.ofString "Program"
  | .known .call => Bytes.ofString "CallExpression"
  | .known .number => Bytes.ofString "NumberLiteral"
  | .known .string => Bytes.ofString "StringLiteral"
  | .other kind => kind.text

end NodeKind

/-- The name under which a node type shows in messages. -/
def SourceShape.typeName : SourceShape → Bytes
  | .program => Bytes.ofString "*ast.Program"
  | .call => Bytes.ofString "*ast.CallExpression"
  | .number => Bytes.ofString "*ast.NumberLiteral"
  | .string => Bytes.ofString "*ast.StringLiteral"

/-- A node of a source tree.  An `absent` place holds no node at all, a
`vacant` one announces a node type and holds no node of it, and a `foreign`
node names its own type and gives its kind. -/
inductive SourceNode where
  | program (body : List SourceNode)
  | call (name : Bytes) (params : List SourceNode)
  | number (value : Bytes)
  | string (value : Bytes)
  | absent
  | vacant (shape : SourceShape)
  | foreign (typeName : Bytes) (kind : NodeKind)
deriving Repr

namespace SourceNode

instance : Inhabited SourceNode := ⟨.absent⟩

/-- What a node says it is; an absent one says nothing. -/
def kind? : SourceNode → Option NodeKind
  | .program _ => some (.known .program)
  | .call _ _ => some (.known .call)
  | .number _ => some (.known .number)
  | .string _ => some (.known .string)
  | .absent => none
  | .vacant shape => some (.known shape)
  | .foreign _ kind => some kind

def typeName : SourceNode → Bytes
  | .program _ => SourceShape.program.typeName
  | .call _ _ => SourceShape.call.typeName
  | .number _ => SourceShape.number.typeName
  | .string _ => SourceShape.string.typeName
  | .absent => Bytes.ofString "<nil>"
  | .vacant shape => shape.typeName
  | .foreign name _ => name

/-- A node in words: its kind and its type. -/
def describe (node : SourceNode) : Bytes :=
  match node.kind? with
  | none => node.typeName
  | some kind =>
      kind.text ++ Bytes.ofString " (" ++ node.typeName ++ Bytes.ofString ")"

end SourceNode

mutual

def Form.toNode : Form → SourceNode
  | .number value => .number value
  | .string value => .string value
  | .call name params => .call name (Form.toNodes params)

def Form.toNodes : List Form → List SourceNode
  | [] => []
  | form :: rest => form.toNode :: Form.toNodes rest

end

def Program.toNode (program : Program) : SourceNode :=
  .program (Form.toNodes program)

end SexprCalls
