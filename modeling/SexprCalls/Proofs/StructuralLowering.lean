import SexprCalls.Lowering
import SexprCalls.Proofs.StepOutcome

/-!
# Lowering is structural

The walk that lowers a program keeps the lists it is building on a stack.  Here
the same output is given by recursion over the tree, and the nodes that keep a
program from being lowered are given one by one, from the node and the nodes
around it alone.  The walk ends with the fault of the first such node, in the
order in which a reader meets the nodes, and otherwise with the output that the
recursion gives.
-/

namespace SexprCalls

/-! ## The nodes of a tree, in order -/

/-- A node of a tree together with the nodes around it, the innermost first. -/
structure Occurrence where
  node : SourceNode
  ancestors : List SourceNode

namespace SourceNode

mutual

/-- The nodes of a tree, each before those below it. -/
def occurrences (ancestors : List SourceNode) : SourceNode → List Occurrence
  | .program body =>
      ⟨.program body, ancestors⟩ ::
        occurrencesOf (.program body :: ancestors) body
  | .call name params =>
      ⟨.call name params, ancestors⟩ ::
        occurrencesOf (.call name params :: ancestors) params
  | .number value => [⟨.number value, ancestors⟩]
  | .string value => [⟨.string value, ancestors⟩]
  | .absent => [⟨.absent, ancestors⟩]
  | .vacant shape => [⟨.vacant shape, ancestors⟩]
  | .foreign typeName kind => [⟨.foreign typeName kind, ancestors⟩]

def occurrencesOf (ancestors : List SourceNode) :
    List SourceNode → List Occurrence
  | [] => []
  | child :: rest =>
      occurrences ancestors child ++ occurrencesOf ancestors rest

end

theorem occurrencesOf_eq_flatMap (ancestors nodes : List SourceNode) :
    occurrencesOf ancestors nodes = nodes.flatMap (occurrences ancestors) := by
  induction nodes with
  | nil =>
      rfl
  | cons node rest inductionHypothesis =>
      simp [occurrencesOf, inductionHypothesis]

/-! ## Output by recursion -/

mutual

/-- The output of a node that stands in a call: one node for a literal or a
call, and none for a program. -/
def asArgument : SourceNode → List OutputNode
  | .number value => [.number value]
  | .string value => [.string value]
  | .call name params => [.call (some name) (asArguments params)]
  | _ => []

def asArguments : List SourceNode → List OutputNode
  | [] => []
  | node :: rest => asArgument node ++ asArguments rest

end

/-- The output of a node that stands in the root: a call becomes a statement. -/
def asStatement : SourceNode → List OutputNode
  | .call name params => [.statement (.call (some name) (asArguments params))]
  | node => asArgument node

end SourceNode

namespace Lowering

/-- The kinds whose nodes lowering looks into. -/
def looksInto : NodeKind → Bool
  | .known .call => true
  | .known .number => true
  | .known .string => true
  | _ => false

/-- The node that a literal or a call below it may not stand in: a program
that is not the root. -/
def nestedProgram? : List SourceNode → Option SourceNode
  | .program body :: _ :: _ => some (.program body)
  | _ => none

/-- Why a node keeps the program around it from being lowered. -/
def fault? (occurrence : Occurrence) : Option (Fault Error) :=
  match occurrence.node with
  | .program _ => none
  | .call _ _ | .number _ | .string _ =>
      (nestedProgram? occurrence.ancestors).map .unsupportedSource
  | .foreign typeName kind =>
      if looksInto kind then
        some .crash
      else
        some (.unsupportedSource (.foreign typeName kind))
  | node => some (.unsupportedSource node)

/-! ## Lists that are being built -/

/-- A frame belongs to the innermost node around a place: the root, a call, or
a program below the root. -/
inductive Frame.Serves : Frame → List SourceNode → Prop
  | statements {latest : List OutputNode} {body : List SourceNode} :
      Serves (.statements latest) [.program body]
  | arguments
      {callee name : Bytes} {latest : List OutputNode}
      {params above : List SourceNode} :
      Serves (.arguments callee latest) (.call name params :: above)
  | closed
      {body : List SourceNode} {around : SourceNode}
      {above : List SourceNode} :
      Serves .closed (.program body :: around :: above)

/-- A frame with the output of one more node. -/
def Frame.take : Frame → SourceNode → Frame
  | .statements latest, node =>
      .statements (node.asStatement.reverse ++ latest)
  | .arguments callee latest, node =>
      .arguments callee (node.asArgument.reverse ++ latest)
  | .closed, _ => .closed

theorem Frame.Serves.take
    {frame : Frame} {ancestors : List SourceNode}
    (serves : frame.Serves ancestors) (node : SourceNode) :
    (frame.take node).Serves ancestors := by
  cases serves with
  | statements =>
      exact .statements
  | arguments =>
      exact .arguments
  | closed =>
      exact .closed

theorem Frame.take_program (frame : Frame) (body : List SourceNode) :
    frame.take (.program body) = frame := by
  cases frame <;> rfl

theorem foldl_take_arguments
    (callee : Bytes) (latest : List OutputNode) (nodes : List SourceNode) :
    nodes.foldl Frame.take (.arguments callee latest) =
      .arguments callee ((SourceNode.asArguments nodes).reverse ++ latest) := by
  induction nodes generalizing latest with
  | nil =>
      rfl
  | cons node rest inductionHypothesis =>
      rw [List.foldl_cons, Frame.take, inductionHypothesis,
        SourceNode.asArguments, List.reverse_append, List.append_assoc]

theorem foldl_take_statements
    (latest : List OutputNode) (nodes : List SourceNode) :
    nodes.foldl Frame.take (.statements latest) =
      .statements
        ((nodes.flatMap SourceNode.asStatement).reverse ++ latest) := by
  induction nodes generalizing latest with
  | nil =>
      rfl
  | cons node rest inductionHypothesis =>
      rw [List.foldl_cons, Frame.take, inductionHypothesis,
        List.flatMap_cons, List.reverse_append, List.append_assoc]

/-! ## One node -/

section Node

variable {frame : Frame} {parent : SourceNode} {above : List SourceNode}

theorem emit_endsAs
    (serves : frame.Serves (parent :: above))
    (node : SourceNode) (output : OutputNode)
    (asStatement : node.asStatement = [output])
    (asArgument : node.asArgument = [output])
    (outer : Frames) :
    (emit (some parent) output).EndsAs (frame :: outer)
      ((nestedProgram? (parent :: above)).map .unsupportedSource)
      (frame.take node :: outer) := by
  cases serves with
  | @statements latest body =>
      have taken : (Frame.statements latest).take node =
          .statements (output :: latest) := by
        rw [Frame.take, asStatement]
        rfl
      rw [taken]
      rfl
  | @arguments callee name latest params above =>
      have taken : (Frame.arguments callee latest).take node =
          .arguments callee (output :: latest) := by
        rw [Frame.take, asArgument]
        rfl
      rw [taken]
      rfl
  | closed =>
      rfl

theorem openCall_endsAs
    (serves : frame.Serves (parent :: above))
    (name : Bytes) (outer : Frames) :
    (openCall (some parent) name).EndsAs (frame :: outer)
      ((nestedProgram? (parent :: above)).map .unsupportedSource)
      (.arguments name [] :: frame :: outer) := by
  cases serves <;> rfl

theorem closeCall_endsAs
    (serves : frame.Serves (parent :: above))
    (outside : nestedProgram? (parent :: above) = none)
    (name : Bytes) (params : List SourceNode) (outer : Frames) :
    closeCall.EndsAs
      (params.foldl Frame.take (.arguments name []) :: frame :: outer)
      none
      (frame.take (.call name params) :: outer) := by
  have collected :
      params.foldl Frame.take (.arguments name []) =
        .arguments name (SourceNode.asArguments params).reverse := by
    rw [foldl_take_arguments, List.append_nil]
  rw [collected]
  cases serves with
  | @statements latest body =>
      change (_, _) = (_, _)
      rw [List.reverse_reverse]
      rfl
  | @arguments callee around latest siblings above =>
      change (_, _) = (_, _)
      rw [List.reverse_reverse]
      rfl
  | closed =>
      cases outside

/-- A foreign node never lets a walk through: a hook that looks into it crashes,
and any other leaves it to the walk, which does not know its children. -/
theorem foreign_endsAs
    (typeName : Bytes) (kind : NodeKind) (start final : Frames) :
    (SourceNode.visit hooks (some parent) (.foreign typeName kind)).EndsAs
      start (fault? ⟨.foreign typeName kind, parent :: above⟩) final := by
  cases kind with
  | known shape =>
      cases shape <;> rfl
  | other kind =>
      rfl

end Node

/-! ## Whole trees

While a node is walked, the frame on top of the stack serves the nodes around
it, and the frames below are left as they are.  The frame then holds the output
of one more node, unless the walk has stopped. -/

mutual

theorem visit_endsAs
    {frame : Frame} {parent : SourceNode} {above : List SourceNode}
    (serves : frame.Serves (parent :: above)) (outer : Frames) :
    (node : SourceNode) →
      (node.visit hooks (some parent)).EndsAs (frame :: outer)
        ((node.occurrences (parent :: above)).findSome? fault?)
        (frame.take node :: outer)
  | .program body => by
      have inside : Frame.closed.Serves (.program body :: parent :: above) :=
        .closed
      have below := visitAll_endsAs inside (frame :: outer) body
      rw [SourceNode.occurrences, findSome?_cons_eq_or, SourceNode.visit,
        Frame.take_program]
      refine Hook.around_endsAs ?_ (fun _ => below) ?_
      · exact Step.endsAs_change (Frame.closed :: ·) (frame :: outer)
      · intro _
        exact Step.endsAs_change List.tail _
  | .call name params => by
      have inside :
          (Frame.arguments name []).Serves
            (.call name params :: parent :: above) :=
        .arguments
      have below := visitAll_endsAs inside (frame :: outer) params
      rw [SourceNode.occurrences, findSome?_cons_eq_or, SourceNode.visit]
      refine Hook.around_endsAs
        (openCall_endsAs serves name outer) (fun _ => below) ?_
      -- A call that was entered stands in no nested program, so that the frame
      -- around it can take it.
      intro entered
      have outside : nestedProgram? (parent :: above) = none :=
        Option.map_eq_none_iff.mp entered
      exact closeCall_endsAs serves outside name params outer
  | .number value => by
      have emitted :=
        emit_endsAs serves (.number value) (.number value) rfl rfl outer
      rw [SourceNode.occurrences, findSome?_cons_eq_or, SourceNode.visit]
      exact Hook.around_endsAs emitted
        (fun _ => Step.endsAs_skip _) (fun _ => Step.endsAs_skip _)
  | .string value => by
      have emitted :=
        emit_endsAs serves (.string value) (.string value) rfl rfl outer
      rw [SourceNode.occurrences, findSome?_cons_eq_or, SourceNode.visit]
      exact Hook.around_endsAs emitted
        (fun _ => Step.endsAs_skip _) (fun _ => Step.endsAs_skip _)
  | .absent =>
      Step.endsAs_stop _ _ _
  | .vacant shape =>
      Step.endsAs_stop _ _ _
  | .foreign typeName kind => by
      rw [SourceNode.occurrences, List.findSome?_singleton]
      exact foreign_endsAs typeName kind (frame :: outer) _

theorem visitAll_endsAs
    {frame : Frame} {parent : SourceNode} {above : List SourceNode}
    (serves : frame.Serves (parent :: above)) (outer : Frames) :
    (nodes : List SourceNode) →
      (SourceNode.visitAll hooks parent nodes).EndsAs (frame :: outer)
        ((SourceNode.occurrencesOf (parent :: above) nodes).findSome? fault?)
        (nodes.foldl Frame.take frame :: outer)
  | [] =>
      Step.endsAs_skip _
  | node :: rest => by
      have first := visit_endsAs serves outer node
      have others := visitAll_endsAs (serves.take node) outer rest
      rw [SourceNode.occurrencesOf, List.findSome?_append,
        SourceNode.visitAll, List.foldl_cons]
      exact first.andThen (fun _ => others)

end

theorem walk_endsAs (body : List SourceNode) :
    ((SourceNode.program body).walk hooks).EndsAs
      [.statements []]
      (((SourceNode.program body).occurrences []).findSome? fault?)
      [.statements (body.flatMap SourceNode.asStatement).reverse] := by
  have root : (Frame.statements []).Serves [.program body] := .statements
  have below := visitAll_endsAs root [] body
  rw [foldl_take_statements, List.append_nil] at below
  rw [SourceNode.occurrences, findSome?_cons_eq_or]
  exact Hook.around_endsAs
    (Step.endsAs_skip _) (fun _ => below) (fun _ => Step.endsAs_skip _)

end Lowering

namespace SourceNode

theorem lower_of_fault
    {body : List SourceNode} {fault : Fault Error}
    (faulty :
      ((SourceNode.program body).occurrences []).findSome? Lowering.fault? =
        some fault) :
    lower (some body) = .error fault := by
  have walked := Lowering.walk_endsAs body
  rw [faulty] at walked
  obtain ⟨frames, stopped⟩ := walked.exists_stopped
  simp only [lower, stopped]

theorem lower_of_no_fault
    {body : List SourceNode}
    (faultless :
      ((SourceNode.program body).occurrences []).findSome? Lowering.fault? =
        none) :
    lower (some body) = .ok (body.flatMap asStatement) := by
  have walked := Lowering.walk_endsAs body
  rw [faultless] at walked
  have held :
      Lowering.statements
          [.statements (body.flatMap asStatement).reverse] =
        body.flatMap asStatement :=
    List.reverse_reverse _
  simp only [lower, walked.passed, held]

/-- Lowering a program gives the fault of the first faulty node of its tree,
and the output by recursion where no node is faulty. -/
theorem lower_is_structural (body : List SourceNode) :
    lower (some body) =
      match
        ((SourceNode.program body).occurrences []).findSome? Lowering.fault?
      with
      | some fault => .error fault
      | none => .ok (body.flatMap asStatement) := by
  split
  · next fault faulty =>
      exact lower_of_fault faulty
  · next faultless =>
      exact lower_of_no_fault faultless

end SourceNode
end SexprCalls
