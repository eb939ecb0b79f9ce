import Mathlib.Data.List.Perm.Basic
import SexprCalls.Proofs.StructuralLowering

/-!
# The tour of a tree

A walk goes into a node, round its children in order, and out of the node again.
The tour of a tree lists all these moments.  A walk with any hooks is the calls
of its hooks along the tour, up to the first node whose children are not known:
a foreign node is still entered, and a place without a node is not.
-/

namespace SexprCalls

/-- Where a search finds the same in each part, it finds the same in the whole. -/
theorem find?_flatMap_congr
    {α β : Type} {test : β → Bool} {first second : α → List β}
    {items : List α}
    (same : ∀ item ∈ items,
      (first item).find? test = (second item).find? test) :
    (items.flatMap first).find? test = (items.flatMap second).find? test := by
  induction items with
  | nil =>
      rfl
  | cons item rest inductionHypothesis =>
      have sameRest := inductionHypothesis fun other member =>
        same other (List.mem_cons_of_mem item member)
      simp only [List.flatMap_cons, List.find?_append,
        same item List.mem_cons_self, sameRest]

/-! ## Nodes and their children -/

namespace SourceNode

/-- The nodes directly below a node. -/
def children : SourceNode → List SourceNode
  | .program body => body
  | .call _ params => params
  | _ => []

/-- A place without a node. -/
def isMissing : SourceNode → Bool
  | .absent => true
  | .vacant _ => true
  | _ => false

def isForeign : SourceNode → Bool
  | .foreign _ _ => true
  | _ => false

/-- A node whose children are not known, so that no walk gets past it. -/
def isDeadEnd (node : SourceNode) : Bool :=
  node.isMissing || node.isForeign

theorem not_isMissing_of_isForeign
    {node : SourceNode} (foreign : node.isForeign = true) :
    node.isMissing = false := by
  cases node with
  | foreign typeName kind =>
      rfl
  | _ =>
      cases foreign

theorem exists_kind_of_not_isMissing
    {node : SourceNode} (present : node.isMissing = false) :
    ∃ kind, node.kind? = some kind := by
  cases node <;> simp [isMissing] at present <;> simp [kind?]

mutual

/-- What holds of a node as soon as it holds of its children holds of every
node. -/
@[elab_as_elim]
theorem induction_children
    {motive : SourceNode → Prop}
    (step : ∀ node : SourceNode,
      (∀ child ∈ node.children, motive child) → motive node) :
    (node : SourceNode) → motive node
  | .program body => step (.program body) (forall_of_children step body)
  | .call name params =>
      step (.call name params) (forall_of_children step params)
  | .number value => step (.number value) nofun
  | .string value => step (.string value) nofun
  | .absent => step .absent nofun
  | .vacant shape => step (.vacant shape) nofun
  | .foreign typeName kind => step (.foreign typeName kind) nofun

theorem forall_of_children
    {motive : SourceNode → Prop}
    (step : ∀ node : SourceNode,
      (∀ child ∈ node.children, motive child) → motive node) :
    (nodes : List SourceNode) → ∀ child ∈ nodes, motive child
  | [], _, member => nomatch member
  | node :: rest, child, member => by
      rcases List.mem_cons.mp member with same | later
      · rw [same]
        exact induction_children step node
      · exact forall_of_children step rest child later

end

theorem occurrences_eq (ancestors : List SourceNode) (node : SourceNode) :
    node.occurrences ancestors =
      ⟨node, ancestors⟩ ::
        node.children.flatMap (occurrences (node :: ancestors)) := by
  cases node <;>
    simp [occurrences, children, occurrencesOf_eq_flatMap]

end SourceNode

/-! ## Tours -/

/-- The two moments at which a walk calls a hook. -/
inductive Phase where
  | enter
  | exit
deriving DecidableEq, Repr

/-- A moment of a walk, with what a hook is given there. -/
structure WalkEvent where
  phase : Phase
  node : SourceNode
  parent : Option SourceNode

/-- A node of a tree is entered and left below the innermost node around it. -/
def Occurrence.event (phase : Phase) (occurrence : Occurrence) : WalkEvent :=
  ⟨phase, occurrence.node, occurrence.ancestors.head?⟩

namespace SourceNode

mutual

/-- The way round a tree: into its root, round the children one after the other,
and out of the root.  Nothing is left out at nodes that no walk gets past. -/
def tour (parent : Option SourceNode) : SourceNode → List WalkEvent
  | .program body =>
      ⟨.enter, .program body, parent⟩ ::
        (tourOf (.program body) body ++ [⟨.exit, .program body, parent⟩])
  | .call name params =>
      ⟨.enter, .call name params, parent⟩ ::
        (tourOf (.call name params) params ++
          [⟨.exit, .call name params, parent⟩])
  | node => [⟨.enter, node, parent⟩, ⟨.exit, node, parent⟩]

def tourOf (parent : SourceNode) : List SourceNode → List WalkEvent
  | [] => []
  | child :: rest => tour (some parent) child ++ tourOf parent rest

end

theorem tourOf_eq_flatMap (parent : SourceNode) (nodes : List SourceNode) :
    tourOf parent nodes = nodes.flatMap (tour (some parent)) := by
  induction nodes with
  | nil =>
      rfl
  | cons node rest inductionHypothesis =>
      simp [tourOf, inductionHypothesis]

theorem tour_eq (parent : Option SourceNode) (node : SourceNode) :
    node.tour parent =
      ⟨.enter, node, parent⟩ ::
        (node.children.flatMap (tour (some node)) ++
          [⟨.exit, node, parent⟩]) := by
  cases node <;> simp [tour, children, tourOf_eq_flatMap]

/-! ## The nodes on a tour -/

/-- Every node is entered once, in the order of the nodes. -/
theorem filter_enter_tour (ancestors : List SourceNode) (node : SourceNode) :
    (node.tour ancestors.head?).filter (fun event => event.phase = .enter) =
      (node.occurrences ancestors).map (Occurrence.event .enter) := by
  induction node using induction_children generalizing ancestors with
  | step node below =>
      have inside :
          node.children.flatMap
              (fun child =>
                (child.tour (some node)).filter
                  (fun event => event.phase = .enter)) =
            node.children.flatMap
              (fun child =>
                (child.occurrences (node :: ancestors)).map
                  (Occurrence.event .enter)) := by
        apply List.flatMap_congr
        intro child member
        exact below child member (node :: ancestors)
      rw [tour_eq, occurrences_eq]
      simp [List.filter_flatMap, List.map_flatMap, inside, Occurrence.event]

/-- Every node is left once. -/
theorem perm_filter_exit_tour
    (ancestors : List SourceNode) (node : SourceNode) :
    ((node.tour ancestors.head?).filter
        (fun event => event.phase = .exit)).Perm
      ((node.occurrences ancestors).map (Occurrence.event .exit)) := by
  induction node using induction_children generalizing ancestors with
  | step node below =>
      have inside :
          (node.children.flatMap
              (fun child =>
                (child.tour (some node)).filter
                  (fun event => event.phase = .exit))).Perm
            (node.children.flatMap
              (fun child =>
                (child.occurrences (node :: ancestors)).map
                  (Occurrence.event .exit))) := by
        apply List.Perm.flatMap_left
        intro child member
        exact below child member (node :: ancestors)
      -- The node itself is left behind all that is below it.
      have last := (inside.append_right [⟨.exit, node, ancestors.head?⟩]).trans
        (List.perm_append_singleton _ _)
      rw [tour_eq, occurrences_eq]
      simpa [List.filter_flatMap, List.map_flatMap, Occurrence.event]
        using last

/-- A tour first meets a dead end on the way into the first of the nodes that
are one. -/
theorem find?_tour (ancestors : List SourceNode) (node : SourceNode) :
    (node.tour ancestors.head?).find? (fun event => event.node.isDeadEnd) =
      ((node.occurrences ancestors).map (Occurrence.event .enter)).find?
        (fun event => event.node.isDeadEnd) := by
  induction node using induction_children generalizing ancestors with
  | step node below =>
      rw [tour_eq, occurrences_eq]
      by_cases deadEnd : node.isDeadEnd = true
      · simp [Occurrence.event, deadEnd]
      · have inside :=
          find?_flatMap_congr fun child member =>
            below child member (node :: ancestors)
        rw [List.head?_cons] at inside
        simp [Occurrence.event, deadEnd, List.map_flatMap, inside]

/-- A tree without dead ends. -/
inductive IsWalkable : SourceNode → Prop
  | node {node : SourceNode} (passable : node.isDeadEnd = false)
      (below : ∀ child ∈ node.children, IsWalkable child) : IsWalkable node

theorem isWalkable_iff (ancestors : List SourceNode) (node : SourceNode) :
    node.IsWalkable ↔
      ∀ occurrence ∈ node.occurrences ancestors,
        occurrence.node.isDeadEnd = false := by
  induction node using induction_children generalizing ancestors with
  | step node inductionHypothesis =>
      rw [occurrences_eq]
      simp only [List.forall_mem_cons, List.mem_flatMap]
      constructor
      · intro ⟨passable, below⟩
        refine ⟨passable, ?_⟩
        intro occurrence ⟨child, member, inChild⟩
        exact (inductionHypothesis child member (node :: ancestors)).mp
          (below child member) occurrence inChild
      · intro ⟨passable, below⟩
        refine ⟨passable, ?_⟩
        intro child member
        apply (inductionHypothesis child member (node :: ancestors)).mpr
        intro occurrence inChild
        exact below occurrence ⟨child, member, inChild⟩

theorem isWalkable_iff_tour (parent : Option SourceNode) (node : SourceNode) :
    node.IsWalkable ↔
      ∀ event ∈ node.tour parent, event.node.isDeadEnd = false := by
  have sameFirst := find?_tour parent.toList node
  have head : parent.toList.head? = parent := by
    cases parent <;> rfl
  rw [head] at sameFirst
  calc
    node.IsWalkable ↔
        ((node.occurrences parent.toList).map (Occurrence.event .enter)).find?
          (fun event => event.node.isDeadEnd) = none := by
      simp [isWalkable_iff parent.toList node, Occurrence.event]
    _ ↔ ∀ event ∈ node.tour parent, event.node.isDeadEnd = false := by
      rw [← sameFirst]
      simp

/-- The nodes around a dead end are not walkable, as it is one of their
nodes. -/
theorem not_isWalkable_of_mem_ancestors
    {ancestors : List SourceNode} {node : SourceNode}
    {occurrence : Occurrence}
    (member : occurrence ∈ node.occurrences ancestors)
    (deadEnd : occurrence.node.isDeadEnd = true) :
    ∀ around ∈ occurrence.ancestors,
      around ∈ ancestors ∨ ¬ around.IsWalkable := by
  induction node using induction_children generalizing ancestors with
  | step node inductionHypothesis =>
      have blocked : ¬ node.IsWalkable := by
        intro walkable
        have passable :=
          (isWalkable_iff ancestors node).mp walkable occurrence member
        simp [deadEnd] at passable
      rw [occurrences_eq] at member
      rcases List.mem_cons.mp member with same | inside
      · intro around isAncestor
        rw [same] at isAncestor
        exact Or.inl isAncestor
      · obtain ⟨child, isChild, inChild⟩ := List.mem_flatMap.mp inside
        intro around isAncestor
        rcases inductionHypothesis child isChild inChild around isAncestor with
          outside | notWalkable
        · rcases List.mem_cons.mp outside with same | outer
          · rw [same]
            exact Or.inr blocked
          · exact Or.inl outer
        · exact Or.inr notWalkable

end SourceNode

/-! ## The calls of hooks along a tour -/

namespace WalkEvent

variable {σ : Type}

/-- Call the hook for a moment of a walk. -/
def call (hooks : Hooks σ) (event : WalkEvent) : Step σ :=
  match event.node.kind? with
  | none => Step.skip
  | some kind =>
      match event.phase with
      | .enter => (hooks kind).enter event.node event.parent
      | .exit => (hooks kind).exit event.node event.parent

def callAll (hooks : Hooks σ) : List WalkEvent → Step σ
  | [] => Step.skip
  | event :: rest => Step.andThen (event.call hooks) (callAll hooks rest)

/-- The moments at which hooks are called: those before the first dead end, and
the way into it where it is a foreign node. -/
def heard : List WalkEvent → List WalkEvent
  | [] => []
  | event :: rest =>
      if event.node.isDeadEnd then
        if event.node.isForeign then [event] else []
      else
        event :: heard rest

/-- The end of a walk: it stops at the first dead end. -/
def settle (events : List WalkEvent) : Step σ :=
  match events.find? (fun event => event.node.isDeadEnd) with
  | some event => Step.stop (.unsupportedSource event.node)
  | none => Step.skip

/-- Call the hooks along a list of moments as far as a walk gets. -/
def follow (hooks : Hooks σ) (events : List WalkEvent) : Step σ :=
  Step.andThen (callAll hooks (heard events)) (settle events)

variable {hooks : Hooks σ} {event : WalkEvent}

theorem follow_cons_of_passable
    (passable : event.node.isDeadEnd = false) (rest : List WalkEvent) :
    follow hooks (event :: rest) =
      (event.call hooks).andThen (follow hooks rest) := by
  simp [follow, heard, callAll, settle, passable, Step.andThen_assoc]

theorem follow_cons_of_deadEnd
    (deadEnd : event.node.isDeadEnd = true) (rest : List WalkEvent) :
    follow hooks (event :: rest) =
      (if event.node.isForeign then event.call hooks else Step.skip).andThen
        (Step.stop (.unsupportedSource event.node)) := by
  by_cases foreign : event.node.isForeign = true
  · simp [follow, heard, callAll, settle, deadEnd, foreign]
  · simp [follow, heard, callAll, settle, deadEnd, foreign]

theorem follow_append (first second : List WalkEvent) :
    follow hooks (first ++ second) =
      (follow hooks first).andThen (follow hooks second) := by
  induction first with
  | nil =>
      simp [follow, heard, callAll, settle]
  | cons event rest inductionHypothesis =>
      cases deadEnd : event.node.isDeadEnd with
      | true =>
          rw [List.cons_append, follow_cons_of_deadEnd deadEnd,
            follow_cons_of_deadEnd deadEnd, Step.andThen_assoc,
            Step.stop_andThen]
      | false =>
          rw [List.cons_append, follow_cons_of_passable deadEnd,
            follow_cons_of_passable deadEnd, inductionHypothesis,
            Step.andThen_assoc]

theorem follow_singleton_of_passable
    (passable : event.node.isDeadEnd = false) :
    follow hooks [event] = event.call hooks := by
  rw [follow_cons_of_passable passable]
  exact Step.andThen_skip _

end WalkEvent

namespace SourceNode

variable {σ : Type}

theorem visit_of_passable
    (hooks : Hooks σ) (parent : Option SourceNode) {node : SourceNode}
    (passable : node.isDeadEnd = false) :
    node.visit hooks parent =
      (WalkEvent.call hooks ⟨.enter, node, parent⟩).andThen
        ((visitAll hooks node node.children).andThen
          (WalkEvent.call hooks ⟨.exit, node, parent⟩)) := by
  cases node with
  | program body =>
      rfl
  | call name params =>
      rfl
  | number value =>
      rfl
  | string value =>
      rfl
  | absent =>
      cases passable
  | vacant shape =>
      cases passable
  | foreign typeName kind =>
      cases passable

theorem visit_of_deadEnd
    (hooks : Hooks σ) (parent : Option SourceNode) {node : SourceNode}
    (deadEnd : node.isDeadEnd = true) :
    node.visit hooks parent =
      (if node.isForeign then WalkEvent.call hooks ⟨.enter, node, parent⟩
        else Step.skip).andThen (Step.stop (.unsupportedSource node)) := by
  cases node with
  | program body =>
      cases deadEnd
  | call name params =>
      cases deadEnd
  | number value =>
      cases deadEnd
  | string value =>
      cases deadEnd
  | absent =>
      rfl
  | vacant shape =>
      rfl
  | foreign typeName kind =>
      rfl

theorem visitAll_eq_follow
    {hooks : Hooks σ} {parent : SourceNode} {nodes : List SourceNode}
    (each : ∀ node ∈ nodes,
      node.visit hooks (some parent) =
        WalkEvent.follow hooks (node.tour (some parent))) :
    visitAll hooks parent nodes =
      WalkEvent.follow hooks (nodes.flatMap (tour (some parent))) := by
  induction nodes with
  | nil =>
      rfl
  | cons node rest inductionHypothesis =>
      have others := inductionHypothesis fun other member =>
        each other (List.mem_cons_of_mem node member)
      rw [visitAll, List.flatMap_cons, WalkEvent.follow_append,
        each node List.mem_cons_self, others]

/-- A walk with any hooks calls them along the tour of the tree. -/
theorem visit_eq_follow
    (hooks : Hooks σ) (parent : Option SourceNode) (node : SourceNode) :
    node.visit hooks parent =
      WalkEvent.follow hooks (node.tour parent) := by
  induction node using induction_children generalizing parent with
  | step node below =>
      rw [tour_eq]
      cases deadEnd : node.isDeadEnd with
      | true =>
          rw [visit_of_deadEnd hooks parent deadEnd,
            WalkEvent.follow_cons_of_deadEnd deadEnd]
      | false =>
          have inside :
              visitAll hooks node node.children =
                WalkEvent.follow hooks
                  (node.children.flatMap (tour (some node))) :=
            visitAll_eq_follow fun child member =>
              below child member (some node)
          rw [visit_of_passable hooks parent deadEnd, inside,
            WalkEvent.follow_cons_of_passable deadEnd,
            WalkEvent.follow_append,
            WalkEvent.follow_singleton_of_passable deadEnd]

end SourceNode

end SexprCalls
