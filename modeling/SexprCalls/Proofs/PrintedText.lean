import SexprCalls.OutputNode.Print
import SexprCalls.Proofs.StepOutcome

/-!
# The text of an output tree

The printer writes to a buffer and may stop at any node.  Here the text of a
tree is given by recursion, and the nodes that cannot be printed are given one by
one.  Printing ends with the fault of the first such node, in the order of the
text, and otherwise adds the whole text to the buffer.
-/

namespace SexprCalls.OutputNode

mutual

/-- The nodes of a tree in the order in which they are printed. -/
def places : OutputNode → List OutputNode
  | .program body => .program body :: placesOf body
  | .statement expression => .statement expression :: expression.places
  | .call callee arguments => .call callee arguments :: placesOf arguments
  | .identifier name => [.identifier name]
  | .number value => [.number value]
  | .string value => [.string value]
  | .absent => [.absent]
  | .vacant shape => [.vacant shape]
  | .foreign typeName => [.foreign typeName]

def placesOf : List OutputNode → List OutputNode
  | [] => []
  | node :: rest => node.places ++ placesOf rest

end

/-- Why a node keeps the tree around it from being printed.  A call without a
callee does so before its arguments. -/
def fault? : OutputNode → Option (Fault Error)
  | .call none _ => some (.unsupportedOutput (.vacant .identifier))
  | .absent => some (.unsupportedOutput .absent)
  | .vacant _ => some .crash
  | .foreign typeName => some (.unsupportedOutput (.foreign typeName))
  | _ => none

/-- The type that is named where a node cannot be printed: its own, or that of
the callee that a call lacks. -/
def blamedType : OutputNode → Bytes
  | .call none _ => OutputShape.identifier.typeName
  | node => node.typeName

mutual

/-- The text of a tree.  Nodes that cannot be printed have none. -/
def text : OutputNode → Bytes
  | .program body => (Bytes.ofString "\n").intercalate (texts body)
  | .statement expression => expression.text ++ Bytes.ofString ";"
  | .call (some callee) arguments =>
      callee ++ Bytes.ofString "(" ++
        (Bytes.ofString ", ").intercalate (texts arguments) ++
        Bytes.ofString ")"
  | .identifier name => name
  | .number value => value
  | .string value => [Bytes.quoteMark] ++ value ++ [Bytes.quoteMark]
  | .call none _ => []
  | .absent => []
  | .vacant _ => []
  | .foreign _ => []

def texts : List OutputNode → List Bytes
  | [] => []
  | node :: rest => node.text :: texts rest

end

theorem placesOf_append (first second : List OutputNode) :
    placesOf (first ++ second) = placesOf first ++ placesOf second := by
  induction first with
  | nil =>
      rfl
  | cons node rest inductionHypothesis =>
      rw [List.cons_append, placesOf, placesOf, inductionHypothesis,
        List.append_assoc]

theorem texts_append (first second : List OutputNode) :
    texts (first ++ second) = texts first ++ texts second := by
  induction first with
  | nil =>
      rfl
  | cons node rest inductionHypothesis =>
      rw [List.cons_append, texts, texts, inductionHypothesis,
        List.cons_append]

/-! ## Steps that print -/

/-- A step that adds a text to the buffer, or stops with a fault. -/
def Prints (step : Step Bytes) (fault? : Option (Fault Error))
    (text : Bytes) : Prop :=
  ∀ buffer : Bytes, step.EndsAs buffer fault? (text.reverse ++ buffer)

theorem prints_skip : Prints Step.skip none [] := by
  intro buffer
  exact Step.endsAs_skip buffer

theorem prints_stop (fault : Fault Error) (text : Bytes) :
    Prints (Step.stop fault) (some fault) text := by
  intro buffer
  exact Step.endsAs_stop fault buffer _

theorem prints_write (text : Bytes) : Prints (write text) none text := by
  intro buffer
  have written := Step.endsAs_change (text.reverseAux ·) buffer
  rw [List.reverseAux_eq] at written
  exact written

theorem Prints.andThen
    {first second : Step Bytes}
    {firstFault? secondFault? : Option (Fault Error)}
    {firstText secondText : Bytes}
    (printsFirst : Prints first firstFault? firstText)
    (printsSecond : Prints second secondFault? secondText) :
    Prints (first.andThen second) (firstFault?.or secondFault?)
      (firstText ++ secondText) := by
  intro buffer
  rw [List.reverse_append, List.append_assoc]
  exact (printsFirst buffer).andThen
    (fun _ => printsSecond (firstText.reverse ++ buffer))

theorem intercalate_cons_eq_flatMap
    (separator head : Bytes) (tail : List Bytes) :
    separator.intercalate (head :: tail) =
      head ++ tail.flatMap (separator ++ ·) := by
  induction tail generalizing head with
  | nil =>
      rw [List.intercalate_singleton, List.flatMap_nil, List.append_nil]
  | cons next rest inductionHypothesis =>
      rw [List.intercalate_cons_cons, inductionHypothesis,
        List.flatMap_cons, List.append_assoc, List.append_assoc]

/-! ## Whole trees -/

mutual

theorem prints_print :
    (node : OutputNode) →
      Prints node.print (node.places.findSome? fault?) node.text
  | .program body => by
      have inside := prints_printAll (Bytes.ofString "\n") body
      rw [print, places, findSome?_cons_eq_or]
      exact inside
  | .statement expression => by
      have printed :=
        (prints_print expression).andThen (prints_write (Bytes.ofString ";"))
      rw [Option.or_none] at printed
      rw [print, places, findSome?_cons_eq_or]
      exact printed
  | .call none arguments => by
      rw [print, places, findSome?_cons_eq_or]
      exact prints_stop _ _
  | .call (some callee) arguments => by
      have inside := prints_printAll (Bytes.ofString ", ") arguments
      have closed := inside.andThen (prints_write (Bytes.ofString ")"))
      have printed :=
        (prints_write callee).andThen
          ((prints_write (Bytes.ofString "(")).andThen closed)
      rw [Option.or_none, ← List.append_assoc, ← List.append_assoc] at printed
      rw [print, places, findSome?_cons_eq_or]
      exact printed
  | .identifier name =>
      prints_write name
  | .number value =>
      prints_write value
  | .string value => by
      have printed :=
        (prints_write [Bytes.quoteMark]).andThen
          ((prints_write value).andThen (prints_write [Bytes.quoteMark]))
      rw [← List.append_assoc] at printed
      exact printed
  | .absent =>
      prints_stop _ _
  | .vacant shape =>
      prints_stop _ _
  | .foreign typeName =>
      prints_stop _ _

theorem prints_printAll (separator : Bytes) :
    (nodes : List OutputNode) →
      Prints (printAll separator nodes)
        ((placesOf nodes).findSome? fault?)
        (separator.intercalate (texts nodes))
  | [] =>
      prints_skip
  | node :: rest => by
      have printed :=
        (prints_print node).andThen (prints_printMore separator rest)
      rw [printAll, placesOf, List.findSome?_append, texts,
        intercalate_cons_eq_flatMap]
      exact printed

theorem prints_printMore (separator : Bytes) :
    (nodes : List OutputNode) →
      Prints (printMore separator nodes)
        ((placesOf nodes).findSome? fault?)
        ((texts nodes).flatMap (separator ++ ·))
  | [] =>
      prints_skip
  | node :: rest => by
      have printed :=
        (prints_write separator).andThen
          ((prints_print node).andThen (prints_printMore separator rest))
      rw [printMore, placesOf, List.findSome?_append, texts,
        List.flatMap_cons, List.append_assoc]
      exact printed

end

theorem render_of_fault
    {node : OutputNode} {fault : Fault Error}
    (faulty : node.places.findSome? fault? = some fault) :
    node.render = .error fault := by
  have printed := prints_print node []
  rw [faulty] at printed
  obtain ⟨buffer, stopped⟩ := printed.exists_stopped
  simp only [render, stopped]

theorem render_of_no_fault
    {node : OutputNode}
    (faultless : node.places.findSome? fault? = none) :
    node.render = .ok node.text := by
  have printed := prints_print node []
  rw [faultless] at printed
  simp only [render, printed.passed, List.append_nil, List.reverse_reverse]

theorem message_of_fault
    {node : OutputNode} {error : Error}
    (faulty : fault? node = some (.error error)) :
    error.message =
      Bytes.ofString "render: " ++ Cause.unsupportedOutputNode.text ++
        Bytes.ofString ": " ++ node.blamedType := by
  unfold fault? at faulty
  split at faulty <;> cases faulty <;> rfl

/-- Printing a tree gives the fault of its first faulty node, in the order of
the text, and the text by recursion where no node is faulty.  An error names the
type of the node it is about. -/
theorem render_is_structural (root : OutputNode) :
    (root.render =
      match root.places.findSome? fault? with
      | some fault => .error fault
      | none => .ok root.text) ∧
    ∀ (node : OutputNode) (error : Error),
      fault? node = some (.error error) →
        error.message =
          Bytes.ofString "render: " ++ Cause.unsupportedOutputNode.text ++
            Bytes.ofString ": " ++ node.blamedType := by
  refine ⟨?_, fun node error => message_of_fault⟩
  split
  · next fault faulty =>
      exact render_of_fault faulty
  · next faultless =>
      exact render_of_no_fault faultless

end SexprCalls.OutputNode
