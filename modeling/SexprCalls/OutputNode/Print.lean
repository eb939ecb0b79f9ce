import SexprCalls.Step

/-!
# Printing an output tree

The printer writes to a buffer that holds the text so far with the latest byte
first.  Strings stand in quotation marks without any escape.
-/

namespace SexprCalls.OutputNode

def write (text : Bytes) : Step Bytes :=
  Step.change (text.reverseAux ·)

mutual

/-- Print a node.  A node that is not there cannot be looked into. -/
def print : OutputNode → Step Bytes
  | .program body => printAll (Bytes.ofString "\n") body
  | .statement expression =>
      Step.andThen expression.print (write (Bytes.ofString ";"))
  | .call none _ => Step.stop (.unsupportedOutput (.vacant .identifier))
  | .call (some callee) arguments =>
      Step.andThen (write callee)
        (Step.andThen (write (Bytes.ofString "("))
          (Step.andThen (printAll (Bytes.ofString ", ") arguments)
            (write (Bytes.ofString ")"))))
  | .identifier name => write name
  | .number value => write value
  | .string value =>
      Step.andThen (write [Bytes.quoteMark])
        (Step.andThen (write value) (write [Bytes.quoteMark]))
  | .absent => Step.stop (.unsupportedOutput .absent)
  | .vacant _ => Step.stop .crash
  | .foreign typeName => Step.stop (.unsupportedOutput (.foreign typeName))

/-- Print nodes in order, with a separator between two of them. -/
def printAll (separator : Bytes) : List OutputNode → Step Bytes
  | [] => Step.skip
  | node :: rest => Step.andThen node.print (printMore separator rest)

/-- Print nodes in order, each after a separator. -/
def printMore (separator : Bytes) : List OutputNode → Step Bytes
  | [] => Step.skip
  | node :: rest =>
      Step.andThen (write separator)
        (Step.andThen node.print (printMore separator rest))

end

/-- The text of an output tree; nothing is kept of a text that is not
complete. -/
def render (node : OutputNode) : Except (Fault Error) Bytes :=
  match node.print [] with
  | (.ok (), buffer) => .ok buffer.reverse
  | (.error fault, _) => .error fault

end SexprCalls.OutputNode
