import SexprCalls.Proofs.WalkTour

/-!
# The children that lowering keeps

Lowering gives an output node for every literal and every call that it reaches.  A
program below the root has no output of its own.  Where a literal or a call stands
in it, lowering fails; where only programs of the same kind stand in it, or nothing
at all, lowering goes on and leaves it out.  So the output has a node for every child
exactly where no program stands below the root.
-/

namespace SexprCalls.SourceNode

/-- A program in which nothing stands but programs of this kind. -/
inductive IsHollow : SourceNode → Prop
  | program {body : List SourceNode} :
      (∀ child ∈ body, IsHollow child) → IsHollow (.program body)

/-- The nodes that may stand in the root or in a call without a fault. -/
inductive IsPlaceable : SourceNode → Prop
  | number (value : Bytes) : IsPlaceable (.number value)
  | string (value : Bytes) : IsPlaceable (.string value)
  | call (name : Bytes) {params : List SourceNode} :
      (∀ param ∈ params, IsPlaceable param) → IsPlaceable (.call name params)
  | hollow {node : SourceNode} : node.IsHollow → IsPlaceable node

def isProgram : SourceNode → Bool
  | .program _ => true
  | _ => false

/-- An output node says what a literal or a call says; a call has one argument for
each parameter, in the same order. -/
inductive Mirrors : SourceNode → OutputNode → Prop
  | number (value : Bytes) : Mirrors (.number value) (.number value)
  | string (value : Bytes) : Mirrors (.string value) (.string value)
  | call (name : Bytes)
      {params : List SourceNode} {arguments : List OutputNode} :
      List.Forall₂ Mirrors params arguments →
      Mirrors (.call name params) (.call (some name) arguments)

/-- The output of a node that stands in the root: a call becomes a statement. -/
def inRoot : SourceNode → OutputNode → OutputNode
  | .call _ _, output => .statement output
  | _, output => output

def MirrorsInRoot (node : SourceNode) (output : OutputNode) : Prop :=
  ∃ bare, Mirrors node bare ∧ output = node.inRoot bare

mutual

/-- A node without the programs that stand in the calls below it. -/
def withoutPrograms : SourceNode → SourceNode
  | .call name params => .call name (withoutProgramsOf params)
  | node => node

def withoutProgramsOf : List SourceNode → List SourceNode
  | [] => []
  | node :: rest =>
      if node.isProgram then
        withoutProgramsOf rest
      else
        node.withoutPrograms :: withoutProgramsOf rest

end

/-! ## Where a node may stand -/

theorem isHollow_iff {node : SourceNode} :
    node.IsHollow ↔
      node.isProgram = true ∧ ∀ child ∈ node.children, child.IsHollow := by
  constructor
  · rintro ⟨below⟩
    exact ⟨rfl, below⟩
  · rintro ⟨program, below⟩
    cases node with
    | program body =>
        exact .program below
    | _ =>
        cases program

/-- Below a program only hollow programs may stand, and below a call what may stand
in a call. -/
theorem isPlaceable_iff {node : SourceNode} :
    node.IsPlaceable ↔
      node.isDeadEnd = false ∧
        ∀ child ∈ node.children,
          if node.isProgram then child.IsHollow else child.IsPlaceable := by
  constructor
  · intro placeable
    cases placeable with
    | number | string =>
        exact ⟨rfl, List.forall_mem_nil _⟩
    | call name below =>
        exact ⟨rfl, below⟩
    | hollow isHollow =>
        cases isHollow with
        | program below =>
            exact ⟨rfl, below⟩
  · rintro ⟨passable, below⟩
    cases node with
    | program body =>
        exact .hollow (.program below)
    | call name params =>
        exact .call name below
    | number value =>
        exact .number value
    | string value =>
        exact .string value
    | _ =>
        cases passable

section Faults

variable {ancestors : List SourceNode}

theorem fault?_eq_none_iff_isProgram
    (nested : (Lowering.nestedProgram? ancestors).isSome = true)
    (node : SourceNode) :
    Lowering.fault? ⟨node, ancestors⟩ = none ↔ node.isProgram = true := by
  obtain ⟨around, isAround⟩ := Option.isSome_iff_exists.mp nested
  cases node with
  | foreign typeName kind =>
      by_cases looked : Lowering.looksInto kind = true <;>
        simp [Lowering.fault?, isProgram, looked]
  | _ =>
      simp [Lowering.fault?, isProgram, isAround]

theorem fault?_eq_none_iff_not_isDeadEnd
    (outside : Lowering.nestedProgram? ancestors = none)
    (node : SourceNode) :
    Lowering.fault? ⟨node, ancestors⟩ = none ↔ node.isDeadEnd = false := by
  cases node with
  | foreign typeName kind =>
      by_cases looked : Lowering.looksInto kind = true <;>
        simp [Lowering.fault?, isDeadEnd, isForeign, looked]
  | _ =>
      simp [Lowering.fault?, isDeadEnd, isMissing, isForeign, outside]

/-- In a program below the root only hollow programs are without a fault. -/
theorem faultless_iff_isHollow
    (nested : (Lowering.nestedProgram? ancestors).isSome = true)
    (node : SourceNode) :
    (∀ occurrence ∈ node.occurrences ancestors,
        Lowering.fault? occurrence = none) ↔
      node.IsHollow := by
  induction node using induction_children generalizing ancestors with
  | step node below =>
      rw [occurrences_eq, isHollow_iff, List.forall_mem_cons,
        List.forall_mem_flatMap, fault?_eq_none_iff_isProgram nested]
      apply and_congr_right
      intro program
      have inside :
          (Lowering.nestedProgram? (node :: ancestors)).isSome = true := by
        cases node with
        | program body =>
            cases ancestors with
            | nil =>
                cases nested
            | cons parent above =>
                rfl
        | _ =>
            cases program
      exact forall₂_congr fun child member => below child member inside

/-- In the root and in a call the placeable nodes are without a fault. -/
theorem faultless_iff_isPlaceable
    (nonempty : ancestors ≠ [])
    (outside : Lowering.nestedProgram? ancestors = none)
    (node : SourceNode) :
    (∀ occurrence ∈ node.occurrences ancestors,
        Lowering.fault? occurrence = none) ↔
      node.IsPlaceable := by
  induction node using induction_children generalizing ancestors with
  | step node below =>
      rw [occurrences_eq, isPlaceable_iff, List.forall_mem_cons,
        List.forall_mem_flatMap, fault?_eq_none_iff_not_isDeadEnd outside]
      apply and_congr_right'
      apply forall₂_congr
      intro child member
      cases node with
      | program body =>
          -- What stands below this node is no longer in the root or in a call.
          have inside :
              (Lowering.nestedProgram?
                (.program body :: ancestors)).isSome = true := by
            obtain ⟨parent, above, rfl⟩ := List.exists_cons_of_ne_nil nonempty
            rfl
          exact faultless_iff_isHollow inside child
      | call name params =>
          exact below child member (List.cons_ne_nil _ _) rfl
      | _ =>
          cases member

end Faults

theorem faultless_iff_forall_isPlaceable (body : List SourceNode) :
    ((SourceNode.program body).occurrences []).findSome? Lowering.fault? =
        none ↔
      ∀ node ∈ body, node.IsPlaceable := by
  have inRoot : Lowering.nestedProgram? [SourceNode.program body] = none := rfl
  rw [List.findSome?_eq_none_iff, occurrences_eq, List.forall_mem_cons,
    List.forall_mem_flatMap]
  constructor
  · rintro ⟨_, below⟩ node member
    exact (faultless_iff_isPlaceable (List.cons_ne_nil _ _) inRoot node).mp
      (below node member)
  · intro placeable
    refine ⟨rfl, fun node member => ?_⟩
    exact (faultless_iff_isPlaceable (List.cons_ne_nil _ _) inRoot node).mpr
      (placeable node member)

/-! ## The output of the nodes that are kept -/

theorem asArguments_eq_flatMap (nodes : List SourceNode) :
    asArguments nodes = nodes.flatMap asArgument := by
  induction nodes with
  | nil =>
      rfl
  | cons node rest inductionHypothesis =>
      simp [asArguments, inductionHypothesis]

/-- A node has one output node, and this is the only one that is related to it. -/
def HasOneOutput
    (mirrors : SourceNode → OutputNode → Prop)
    (outputOf : SourceNode → List OutputNode) (node : SourceNode) : Prop :=
  ∃ built, outputOf node = [built] ∧
    ∀ output, mirrors node.withoutPrograms output ↔ output = built

/-- Where programs have no output and every other node has one, the output of a list
is related to what remains of the list, node by node. -/
theorem forall₂_withoutProgramsOf_iff
    {mirrors : SourceNode → OutputNode → Prop}
    {outputOf : SourceNode → List OutputNode} {nodes : List SourceNode}
    (skipped : ∀ body, outputOf (.program body) = [])
    (kept : ∀ node ∈ nodes, node.isProgram = false →
      HasOneOutput mirrors outputOf node)
    (outputs : List OutputNode) :
    List.Forall₂ mirrors (withoutProgramsOf nodes) outputs ↔
      outputs = nodes.flatMap outputOf := by
  induction nodes generalizing outputs with
  | nil =>
      rw [withoutProgramsOf, List.forall₂_nil_left_iff, List.flatMap_nil]
  | cons node rest inductionHypothesis =>
      have others := inductionHypothesis fun other member =>
        kept other (List.mem_cons_of_mem node member)
      rw [withoutProgramsOf, List.flatMap_cons]
      by_cases program : node.isProgram = true
      · have nothing : outputOf node = [] := by
          cases node with
          | program body =>
              exact skipped body
          | _ =>
              cases program
        rw [if_pos program, nothing, List.nil_append]
        exact others outputs
      · obtain ⟨built, onlyOutput, isOutput⟩ :=
          kept node List.mem_cons_self (eq_false_of_ne_true program)
        rw [if_neg program, onlyOutput, List.singleton_append,
          List.forall₂_cons_left_iff]
        constructor
        · rintro ⟨output, more, mirrored, mirroredRest, rfl⟩
          rw [(isOutput output).mp mirrored, (others more).mp mirroredRest]
        · rintro rfl
          exact ⟨built, _, (isOutput built).mpr rfl, (others _).mpr rfl, rfl⟩

theorem mirrors_call_iff
    {name : Bytes} {params : List SourceNode} {output : OutputNode} :
    Mirrors (.call name params) output ↔
      ∃ arguments, output = .call (some name) arguments ∧
        List.Forall₂ Mirrors params arguments := by
  constructor
  · rintro ⟨⟩
    exact ⟨_, rfl, ‹_›⟩
  · rintro ⟨arguments, rfl, below⟩
    exact .call name below

/-- A literal or a call that may stand in a call is one argument there. -/
theorem hasOneOutput_asArgument
    {node : SourceNode} (placeable : node.IsPlaceable)
    (kept : node.isProgram = false) :
    HasOneOutput Mirrors asArgument node := by
  induction node using induction_children with
  | step node below =>
      cases placeable with
      | number value =>
          refine ⟨.number value, rfl, fun output => ⟨?_, ?_⟩⟩
          · rintro ⟨⟩
            rfl
          · rintro rfl
            exact .number value
      | string value =>
          refine ⟨.string value, rfl, fun output => ⟨?_, ?_⟩⟩
          · rintro ⟨⟩
            rfl
          · rintro rfl
            exact .string value
      | @call name params inCall =>
          refine ⟨.call (some name) (asArguments params), rfl, fun output => ?_⟩
          have arguments :
              ∀ outputs, List.Forall₂ Mirrors (withoutProgramsOf params) outputs ↔
                outputs = params.flatMap asArgument :=
            forall₂_withoutProgramsOf_iff (fun body => rfl)
              fun param member => below param member (inCall param member)
          rw [withoutPrograms, mirrors_call_iff, asArguments_eq_flatMap]
          simp only [arguments, exists_eq_right]
      | hollow hollow =>
          cases hollow
          cases kept

theorem asStatement_eq_map (node : SourceNode) :
    node.asStatement = node.asArgument.map node.inRoot := by
  cases node <;> rfl

theorem inRoot_withoutPrograms (node : SourceNode) :
    node.withoutPrograms.inRoot = node.inRoot := by
  cases node <;> rfl

theorem hasOneOutput_asStatement
    {node : SourceNode} (placeable : node.IsPlaceable)
    (kept : node.isProgram = false) :
    HasOneOutput MirrorsInRoot asStatement node := by
  obtain ⟨built, onlyOutput, isOutput⟩ := hasOneOutput_asArgument placeable kept
  refine ⟨node.inRoot built, ?_, fun output => ?_⟩
  · rw [asStatement_eq_map, onlyOutput, List.map_singleton]
  · simp only [MirrorsInRoot, isOutput, inRoot_withoutPrograms, exists_eq_left]

theorem lower_eq_ok_iff (body : List SourceNode) (target : List OutputNode) :
    lower (some body) = .ok target ↔
      (∀ node ∈ body, node.IsPlaceable) ∧
        List.Forall₂ MirrorsInRoot (withoutProgramsOf body) target := by
  have output (placeable : ∀ node ∈ body, node.IsPlaceable) :
      List.Forall₂ MirrorsInRoot (withoutProgramsOf body) target ↔
        target = body.flatMap asStatement :=
    forall₂_withoutProgramsOf_iff (fun nested => rfl)
      (fun node member => hasOneOutput_asStatement (placeable node member))
      target
  cases fault :
      ((SourceNode.program body).occurrences []).findSome?
        Lowering.fault? with
  | none =>
      have placeable := (faultless_iff_forall_isPlaceable body).mp fault
      rw [lower_of_no_fault fault, Except.ok.injEq, output placeable, eq_comm]
      exact (and_iff_right placeable).symm
  | some first =>
      rw [lower_of_fault fault]
      apply iff_of_false
      · nofun
      · rintro ⟨placeable, _⟩
        rw [(faultless_iff_forall_isPlaceable body).mpr placeable] at fault
        cases fault

/-! ## Trees without programs below the root -/

theorem withoutProgramsOf_eq_self
    {nodes : List SourceNode}
    (each : ∀ node ∈ nodes,
      node.isProgram = false ∧ node.withoutPrograms = node) :
    withoutProgramsOf nodes = nodes := by
  induction nodes with
  | nil =>
      rfl
  | cons node rest inductionHypothesis =>
      obtain ⟨⟨kept, same⟩, others⟩ := List.forall_mem_cons.mp each
      simp [withoutProgramsOf, kept, same, inductionHypothesis others]

theorem withoutPrograms_eq_self
    {ancestors : List SourceNode} {node : SourceNode}
    (free : ∀ occurrence ∈ node.occurrences ancestors,
      occurrence.node.isProgram = false) :
    node.isProgram = false ∧ node.withoutPrograms = node := by
  induction node using induction_children generalizing ancestors with
  | step node below =>
      rw [occurrences_eq, List.forall_mem_cons, List.forall_mem_flatMap] at free
      obtain ⟨kept, inside⟩ := free
      refine ⟨kept, ?_⟩
      cases node with
      | call name params =>
          have same : withoutProgramsOf params = params :=
            withoutProgramsOf_eq_self fun param member =>
              below param member (inside param member)
          rw [withoutPrograms, same]
      | _ =>
          rfl

theorem exists_related
    {mirrors : SourceNode → OutputNode → Prop}
    {nodes : List SourceNode} {outputs : List OutputNode}
    (related : List.Forall₂ mirrors nodes outputs)
    {node : SourceNode} (member : node ∈ nodes) :
    ∃ output, mirrors node output := by
  induction related with
  | nil =>
      cases member
  | @cons first output rest more relatedFirst _ inductionHypothesis =>
      rcases List.mem_cons.mp member with rfl | later
      · exact ⟨output, relatedFirst⟩
      · exact inductionHypothesis later

/-- What is mirrored as a whole holds no program. -/
theorem Mirrors.programFree
    {node : SourceNode} {output : OutputNode} (mirrors : Mirrors node output)
    (ancestors : List SourceNode) :
    ∀ occurrence ∈ node.occurrences ancestors,
      occurrence.node.isProgram = false := by
  induction node using induction_children generalizing ancestors output with
  | step node below =>
      rw [occurrences_eq, List.forall_mem_cons, List.forall_mem_flatMap]
      cases mirrors with
      | number | string =>
          exact ⟨rfl, nofun⟩
      | @call name params arguments mirrored =>
          refine ⟨rfl, fun param member => ?_⟩
          obtain ⟨argument, mirrorsParam⟩ := exists_related mirrored member
          exact below param member mirrorsParam _

/-- Every child is mirrored exactly where no program stands below the root. -/
theorem forall₂_mirrorsInRoot_iff
    {body : List SourceNode} {target : List OutputNode}
    (lowered : lower (some body) = .ok target) :
    List.Forall₂ MirrorsInRoot body target ↔
      ∀ node ∈ body, ∀ occurrence ∈ node.occurrences [.program body],
        occurrence.node.isProgram = false := by
  constructor
  · intro mirrored node member
    obtain ⟨_, bare, mirrors, _⟩ := exists_related mirrored member
    exact mirrors.programFree [.program body]
  · intro free
    have same : withoutProgramsOf body = body :=
      withoutProgramsOf_eq_self fun node member =>
        withoutPrograms_eq_self (free node member)
    have mirrored := ((lower_eq_ok_iff body target).mp lowered).2
    rwa [same] at mirrored

theorem fault?_cases
    {occurrence : Occurrence} {fault : Fault Error}
    (faulty : Lowering.fault? occurrence = some fault) :
    (∃ node, fault = .unsupportedSource node) ∨
      fault = .crash ∧
        ∃ typeName kind, occurrence.node = .foreign typeName kind ∧
          Lowering.looksInto kind = true := by
  obtain ⟨node, ancestors⟩ := occurrence
  cases node with
  | program body =>
      cases faulty
  | call name params =>
      obtain ⟨around, _, rfl⟩ := Option.map_eq_some_iff.mp faulty
      exact Or.inl ⟨around, rfl⟩
  | number value =>
      obtain ⟨around, _, rfl⟩ := Option.map_eq_some_iff.mp faulty
      exact Or.inl ⟨around, rfl⟩
  | string value =>
      obtain ⟨around, _, rfl⟩ := Option.map_eq_some_iff.mp faulty
      exact Or.inl ⟨around, rfl⟩
  | absent =>
      cases faulty
      exact Or.inl ⟨_, rfl⟩
  | vacant shape =>
      cases faulty
      exact Or.inl ⟨_, rfl⟩
  | foreign typeName kind =>
      change
        (if Lowering.looksInto kind then some .crash
          else some (.unsupportedSource (.foreign typeName kind))) =
            some fault at faulty
      by_cases looked : Lowering.looksInto kind = true
      · rw [if_pos looked] at faulty
        cases faulty
        exact Or.inr ⟨rfl, typeName, kind, rfl, looked⟩
      · rw [if_neg looked] at faulty
        cases faulty
        exact Or.inl ⟨_, rfl⟩

/-- A failure reports a node, unless lowering has looked into a foreign node. -/
theorem fault_cases_of_lower
    {body : List SourceNode} {fault : Fault Error}
    (failed : lower (some body) = .error fault) :
    (∃ node, fault = .unsupportedSource node) ∨
      fault = .crash ∧
        ∃ occurrence ∈ (SourceNode.program body).occurrences [],
          ∃ typeName kind, occurrence.node = .foreign typeName kind ∧
            Lowering.looksInto kind = true := by
  cases first :
      ((SourceNode.program body).occurrences []).findSome?
        Lowering.fault? with
  | none =>
      rw [lower_of_no_fault first] at failed
      cases failed
  | some found =>
      rw [lower_of_fault first] at failed
      cases failed
      obtain ⟨occurrence, member, faulty⟩ :=
        List.exists_of_findSome?_eq_some first
      rcases fault?_cases faulty with reported | ⟨crashed, foreign⟩
      · exact Or.inl reported
      · exact Or.inr ⟨crashed, occurrence, member, foreign⟩

/-- Lowering succeeds exactly where only literals, calls and hollow programs stand in
the root and in the calls.  The output then has one node for every child at every
level, in the same order, the hollow programs apart: it has one for every child
without exception only where no program stands below the root.  A failure reports the
node it is about, unless lowering has looked into a foreign node. -/
theorem lower_leaves_out_hollow_programs (body : List SourceNode) :
    (∀ target, lower (some body) = .ok target ↔
      (∀ node ∈ body, node.IsPlaceable) ∧
        List.Forall₂ MirrorsInRoot (withoutProgramsOf body) target) ∧
    (∀ target, lower (some body) = .ok target →
      (List.Forall₂ MirrorsInRoot body target ↔
        ∀ node ∈ body, ∀ occurrence ∈ node.occurrences [.program body],
          occurrence.node.isProgram = false)) ∧
    (∀ fault, lower (some body) = .error fault →
      (∃ node, fault = .unsupportedSource node) ∨
        fault = .crash ∧
          ∃ occurrence ∈ (SourceNode.program body).occurrences [],
            ∃ typeName kind, occurrence.node = .foreign typeName kind ∧
              Lowering.looksInto kind = true) :=
  ⟨lower_eq_ok_iff body, fun _ => forall₂_mirrorsInRoot_iff,
    fun _ => fault_cases_of_lower⟩

/-- An empty program below the root is lowered to nothing, and no fault tells of
it. -/
theorem lower_drops_empty_program :
    ¬ ∀ body target, lower (some body) = .ok target →
      List.Forall₂ MirrorsInRoot body target := by
  intro keepsAll
  have mirrored := keepsAll [.program []] [] rfl
  cases mirrored

end SexprCalls.SourceNode
