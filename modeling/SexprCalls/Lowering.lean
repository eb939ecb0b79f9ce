import SexprCalls.SourceNode.Walk

/-!
# Lowering

A walk over a source program builds its output tree.  Every open list of output
nodes has a frame on a stack: the statements of the program at the bottom, the
arguments of the open calls above.  A literal goes into the list of its parent,
and so does a call once its own arguments are complete.  A program below the
root opens no list, so that nothing may stand in it.
-/

namespace SexprCalls.Lowering

/-- A list of output nodes that is being built, the latest node first. -/
inductive Frame where
  | statements (latest : List OutputNode)
  | arguments (callee : Bytes) (latest : List OutputNode)
  | closed
deriving Repr

/-- The open lists, the innermost first. -/
abbrev Frames := List Frame

/-- Add a node to the innermost list.  Where no list is open, the parent is a
node that can have no children. -/
def emit (parent : Option SourceNode) (node : OutputNode) : Step Frames
  | .statements latest :: outer =>
      (.ok (), .statements (node :: latest) :: outer)
  | .arguments callee latest :: outer =>
      (.ok (), .arguments callee (node :: latest) :: outer)
  | frames =>
      (.error (.unsupportedSource (parent.getD .absent)), frames)

/-- Open the argument list of a call, provided that the call itself has a list
to go into. -/
def openCall (parent : Option SourceNode) (callee : Bytes) : Step Frames
  | .closed :: outer =>
      (.error (.unsupportedSource (parent.getD .absent)), .closed :: outer)
  | [] => (.error (.unsupportedSource (parent.getD .absent)), [])
  | frames => (.ok (), .arguments callee [] :: frames)

/-- Close the innermost argument list and put the call into the list around it:
as a statement into the program, bare into another call. -/
def closeCall : Step Frames
  | .arguments callee latest :: .statements before :: outer =>
      (.ok (), .statements
        (.statement (.call (some callee) latest.reverse) :: before) :: outer)
  | .arguments callee latest :: .arguments around before :: outer =>
      (.ok (), .arguments around
        (.call (some callee) latest.reverse :: before) :: outer)
  | frames => (.ok (), frames)

def dropFrame : Step Frames :=
  Step.change List.tail

/-- A program below the root hides the open lists while it is walked. -/
def programHook : Hook Frames where
  enter := fun _ parent =>
    if parent.isNone then Step.skip else Step.change (Frame.closed :: ·)
  exit := fun _ parent =>
    if parent.isNone then Step.skip else dropFrame

/-- The hooks that build the output tree.  The value of a literal and the name
of a call can be read off nodes of the right type only. -/
def hooks : Hooks Frames
  | .known .program => programHook
  | .known .call =>
      { enter := fun node parent =>
          match node with
          | .call name _ => openCall parent name
          | _ => Step.stop .crash
        exit := fun _ _ => closeCall }
  | .known .number =>
      { enter := fun node parent =>
          match node with
          | .number value => emit parent (.number value)
          | _ => Step.stop .crash }
  | .known .string =>
      { enter := fun node parent =>
          match node with
          | .string value => emit parent (.string value)
          | _ => Step.stop .crash }
  | .other _ => Hook.idle

/-- The statements that the frames hold at the end of a walk. -/
def statements : Frames → List OutputNode
  | .statements latest :: _ => latest.reverse
  | _ => []

end SexprCalls.Lowering

namespace SexprCalls

/-- The statements of the output for a program, given by the nodes of its body;
no program at all is reported as an absent node. -/
def SourceNode.lower :
    Option (List SourceNode) → Except (Fault Error) (List OutputNode)
  | none => .error (.unsupportedSource .absent)
  | some body =>
      match (SourceNode.program body).walk Lowering.hooks
          [.statements []] with
      | (.ok (), frames) => .ok (Lowering.statements frames)
      | (.error fault, _) => .error fault

end SexprCalls
