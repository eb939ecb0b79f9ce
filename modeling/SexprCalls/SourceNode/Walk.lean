import SexprCalls.Step

/-!
# Walking a source tree

A walk goes through a tree depth first.  At every node it makes the enter step
that its hooks hold for the kind of the node, walks the children in order, and
makes the exit step.  A node whose children are not known ends the walk.
-/

namespace SexprCalls

/-- The steps to make on the way into a node and on the way out.  Each is given
the node and its parent, which the root does not have. -/
structure Hook (σ : Type) where
  enter : SourceNode → Option SourceNode → Step σ := fun _ _ => Step.skip
  exit : SourceNode → Option SourceNode → Step σ := fun _ _ => Step.skip

/-- A hook for every kind of node. -/
abbrev Hooks (σ : Type) := NodeKind → Hook σ

namespace Hook

variable {σ : Type}

def idle : Hook σ := {}

/-- The steps of a hook around those that are made below a node. -/
def around (hook : Hook σ) (node : SourceNode) (parent : Option SourceNode)
    (below : Step σ) : Step σ :=
  Step.andThen (hook.enter node parent)
    (Step.andThen below (hook.exit node parent))

end Hook

namespace SourceNode

variable {σ : Type}

mutual

/-- Walk a node below its parent.  A foreign node is entered before it turns
out that its children are not known; a place without a node is not entered. -/
def visit (hooks : Hooks σ) (parent : Option SourceNode) : SourceNode → Step σ
  | .program body =>
      (hooks (.known .program)).around (.program body) parent
        (visitAll hooks (.program body) body)
  | .call name params =>
      (hooks (.known .call)).around (.call name params) parent
        (visitAll hooks (.call name params) params)
  | .number value =>
      (hooks (.known .number)).around (.number value) parent Step.skip
  | .string value =>
      (hooks (.known .string)).around (.string value) parent Step.skip
  | .absent =>
      Step.stop (.unsupportedSource .absent)
  | .vacant shape =>
      Step.stop (.unsupportedSource (.vacant shape))
  | .foreign typeName kind =>
      Step.andThen ((hooks kind).enter (.foreign typeName kind) parent)
        (Step.stop (.unsupportedSource (.foreign typeName kind)))

def visitAll (hooks : Hooks σ) (parent : SourceNode) :
    List SourceNode → Step σ
  | [] => Step.skip
  | child :: rest =>
      Step.andThen (visit hooks (some parent) child)
        (visitAll hooks parent rest)

end

def walk (root : SourceNode) (hooks : Hooks σ) : Step σ :=
  root.visit hooks none

end SourceNode
end SexprCalls
