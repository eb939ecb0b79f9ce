import SexprCalls.Proofs.NestingCheck
import SexprCalls.Proofs.WalkTour

/-!
# How deep calls nest

The nesting of a tree is the greatest number of calls that stand one in the
other.  The nesting check looks at one node at a time and reports the first that
it objects to; on a tree that can be walked to its end it objects to none exactly
when the nesting is within the limit.
-/

namespace SexprCalls

namespace SourceNode

mutual

/-- The greatest number of calls that stand one in the other.  Programs on the
way add nothing. -/
def nesting : SourceNode → Nat
  | .program body => nestingOf body
  | .call _ params => nestingOf params + 1
  | _ => 0

def nestingOf : List SourceNode → Nat
  | [] => 0
  | child :: rest => max child.nesting (nestingOf rest)

end

theorem nesting_of_call
    {node : SourceNode} (call : Check.isCall node = true) :
    node.nesting = nestingOf node.children + 1 := by
  cases node <;> simp [Check.isCall] at call
  rfl

theorem nesting_of_no_call
    {node : SourceNode} (noCall : ¬ Check.isCall node = true) :
    node.nesting = nestingOf node.children := by
  cases node <;> simp [Check.isCall] at noCall <;>
    simp [nesting, children, nestingOf]

theorem nestingOf_le_iff
    (around : Nat) (limit : Int) (nodes : List SourceNode) :
    ((around + nestingOf nodes : Nat) : Int) ≤ limit ↔
      (around : Int) ≤ limit ∧
        ∀ node ∈ nodes, ((around + node.nesting : Nat) : Int) ≤ limit := by
  induction nodes with
  | nil =>
      simp [nestingOf]
  | cons node rest inductionHypothesis =>
      have both :
          ((around + max node.nesting (nestingOf rest) : Nat) : Int) ≤ limit ↔
            ((around + node.nesting : Nat) : Int) ≤ limit ∧
              ((around + nestingOf rest : Nat) : Int) ≤ limit := by
        omega
      rw [nestingOf, both, inductionHypothesis, List.forall_mem_cons,
        and_left_comm]

end SourceNode

namespace Check

/-- No call stands too deep exactly when the nesting, added to the calls around
the tree, is within the limit. -/
theorem levels_le_iff_nesting_le
    {limit : Int} {ancestors : List SourceNode} {node : SourceNode}
    (within : (openCalls ancestors : Int) ≤ limit) :
    (∀ occurrence ∈ node.occurrences ancestors,
        isCall occurrence.node = true →
          ((openCalls occurrence.ancestors + 1 : Nat) : Int) ≤ limit) ↔
      ((openCalls ancestors + node.nesting : Nat) : Int) ≤ limit := by
  induction node using SourceNode.induction_children generalizing ancestors with
  | step node inductionHypothesis =>
      have inside (level : (openCalls (node :: ancestors) : Int) ≤ limit) :
          (∀ occurrence ∈
              node.children.flatMap
                (SourceNode.occurrences (node :: ancestors)),
            isCall occurrence.node = true →
              ((openCalls occurrence.ancestors + 1 : Nat) : Int) ≤ limit) ↔
            ((openCalls (node :: ancestors) +
              SourceNode.nestingOf node.children : Nat) : Int) ≤ limit := by
        rw [SourceNode.nestingOf_le_iff, List.forall_mem_flatMap]
        simp only [level, true_and]
        apply forall₂_congr
        intro child member
        exact inductionHypothesis child member level
      rw [SourceNode.occurrences_eq, List.forall_mem_cons]
      by_cases call : isCall node = true
      · rw [openCalls_cons_of_call call] at inside
        rw [SourceNode.nesting_of_call call]
        constructor
        · intro ⟨own, below⟩
          have deepest := (inside (own call)).mp below
          omega
        · intro deepest
          have level : ((openCalls ancestors + 1 : Nat) : Int) ≤ limit := by
            omega
          refine ⟨fun _ => level, (inside level).mpr ?_⟩
          omega
      · rw [openCalls_cons_of_no_call call] at inside
        rw [SourceNode.nesting_of_no_call call, ← inside within]
        simp [call]

theorem depthFault?_eq_none_iff
    {occurrence : Occurrence} (passable : occurrence.node.isDeadEnd = false)
    (limit : Int) :
    depthFault? limit occurrence = none ↔
      (isCall occurrence.node = true →
        ((openCalls occurrence.ancestors + 1 : Nat) : Int) ≤ limit) := by
  obtain ⟨node, ancestors⟩ := occurrence
  cases node with
  | call name params =>
      simp [depthFault?, isCall]
  | program body =>
      simp [depthFault?, isCall]
  | number value =>
      simp [depthFault?, isCall]
  | string value =>
      simp [depthFault?, isCall]
  | absent =>
      simp [SourceNode.isDeadEnd, SourceNode.isMissing] at passable
  | vacant shape =>
      simp [SourceNode.isDeadEnd, SourceNode.isMissing] at passable
  | foreign typeName kind =>
      simp [SourceNode.isDeadEnd, SourceNode.isForeign] at passable

theorem maxDepth_run_of_positive
    {limit : Int} (positive : 0 < limit) (root : SourceNode) :
    (maxDepth limit).run root =
      match (root.occurrences []).findSome? (depthFault? limit) with
      | some fault => .error fault
      | none => .ok () := by
  have walked := visit_endsAs limit none [] root
  rw [maxDepth_run_eq_walk positive]
  exact walked.result

/-- A limit that is not positive rejects nothing.  Any other rejects a tree for
its first node that is a call on a level past the limit or that no walk gets past,
and a tree without nodes of the second kind exactly when its calls nest deeper
than the limit. -/
theorem maxDepth_decides_nesting (limit : Int) (root : SourceNode) :
    ((maxDepth limit).run root =
      if limit ≤ 0 then
        .ok ()
      else
        match (root.occurrences []).findSome? (depthFault? limit) with
        | some fault => .error fault
        | none => .ok ()) ∧
    (0 < limit →
      (∀ occurrence ∈ root.occurrences [],
        occurrence.node.isDeadEnd = false) →
      ((maxDepth limit).run root = .ok () ↔
        (root.nesting : Int) ≤ limit)) := by
  constructor
  · by_cases disabled : limit ≤ 0
    · rw [if_pos disabled]
      exact if_pos disabled
    · rw [if_neg disabled]
      exact maxDepth_run_of_positive (Int.not_le.mp disabled) root
  · intro positive passable
    have accepted :
        (root.occurrences []).findSome? (depthFault? limit) = none ↔
          (root.nesting : Int) ≤ limit := by
      have within : (openCalls [] : Int) ≤ limit := Int.le_of_lt positive
      rw [List.findSome?_eq_none_iff]
      calc
        (∀ occurrence ∈ root.occurrences [],
            depthFault? limit occurrence = none) ↔
            ∀ occurrence ∈ root.occurrences [],
              isCall occurrence.node = true →
                ((openCalls occurrence.ancestors + 1 : Nat) : Int) ≤ limit :=
          forall₂_congr fun occurrence member =>
            depthFault?_eq_none_iff (passable occurrence member) limit
        _ ↔ ((openCalls [] + root.nesting : Nat) : Int) ≤ limit :=
          levels_le_iff_nesting_le within
        _ ↔ (root.nesting : Int) ≤ limit := by
          simp [openCalls]
    rw [maxDepth_run_of_positive positive, ← accepted]
    cases (root.occurrences []).findSome? (depthFault? limit) <;> simp

end Check
end SexprCalls
