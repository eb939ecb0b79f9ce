import SexprCalls.Proofs.WalkTour

/-!
# Recorded walks

Hooks that write down their calls show the order of a walk.  With a hook for
every kind and phase the record of a walk is the tour of the tree, cut at the first
node that no walk gets past.  With fewer hooks it is that record without the
calls of the hooks that are missing, and a hook that fails cuts it behind its own
call.
-/

namespace SexprCalls

/-! ## What is heard of a tour -/

namespace WalkEvent

variable {first : List WalkEvent}

theorem heard_append_of_passable
    (passable : ∀ event ∈ first, event.node.isDeadEnd = false)
    (second : List WalkEvent) :
    heard (first ++ second) = first ++ heard second := by
  induction first with
  | nil =>
      rfl
  | cons event rest inductionHypothesis =>
      simp only [List.forall_mem_cons] at passable
      simp [heard, passable.1, inductionHypothesis passable.2]

theorem heard_of_passable
    (passable : ∀ event ∈ first, event.node.isDeadEnd = false) :
    heard first = first := by
  simpa [heard] using heard_append_of_passable passable []

theorem heard_append_of_deadEnd
    (blocked : ∃ event ∈ first, event.node.isDeadEnd = true)
    (second : List WalkEvent) :
    heard (first ++ second) = heard first := by
  induction first with
  | nil =>
      simp at blocked
  | cons event rest inductionHypothesis =>
      by_cases deadEnd : event.node.isDeadEnd = true
      · simp [heard, deadEnd]
      · have later : ∃ event ∈ rest, event.node.isDeadEnd = true := by
          simpa [deadEnd] using blocked
        simp [heard, deadEnd, inductionHypothesis later]

/-- What is heard of a list ends behind a part that is passed, or within it. -/
theorem heard_append_cases (first second : List WalkEvent) :
    (heard first = first ∧ heard (first ++ second) = first ++ heard second ∧
        ∀ event ∈ first, event.node.isDeadEnd = false) ∨
      heard (first ++ second) = heard first := by
  by_cases blocked : ∃ event ∈ first, event.node.isDeadEnd = true
  · exact Or.inr (heard_append_of_deadEnd blocked second)
  · have passable : ∀ event ∈ first, event.node.isDeadEnd = false := by
      simpa using blocked
    exact Or.inl ⟨heard_of_passable passable,
      heard_append_of_passable passable second, passable⟩

theorem exists_mem_heard_of_flatMap
    {nodes : List SourceNode} {events : SourceNode → List WalkEvent}
    {event : WalkEvent} (member : event ∈ heard (nodes.flatMap events)) :
    ∃ node ∈ nodes, event ∈ heard (events node) := by
  induction nodes with
  | nil =>
      simp [heard] at member
  | cons node rest inductionHypothesis =>
      rw [List.flatMap_cons] at member
      rcases heard_append_cases (events node) (rest.flatMap events) with
        ⟨whole, passed, _⟩ | stopped
      · rw [passed] at member
        rcases List.mem_append.mp member with inFirst | inRest
        · exact ⟨node, List.mem_cons_self, by rwa [whole]⟩
        · obtain ⟨other, isOther, inOther⟩ := inductionHypothesis inRest
          exact ⟨other, List.mem_cons_of_mem node isOther, inOther⟩
      · rw [stopped] at member
        exact ⟨node, List.mem_cons_self, member⟩

/-- No hook hears of a place without a node. -/
theorem not_isMissing_of_mem_heard
    {events : List WalkEvent} {event : WalkEvent}
    (member : event ∈ heard events) :
    event.node.isMissing = false := by
  induction events with
  | nil =>
      simp [heard] at member
  | cons head rest inductionHypothesis =>
      by_cases deadEnd : head.node.isDeadEnd = true
      · by_cases foreign : head.node.isForeign = true
        · have same : event = head := by
            simpa [heard, deadEnd, foreign] using member
          rw [same]
          exact SourceNode.not_isMissing_of_isForeign foreign
        · simp [heard, deadEnd, foreign] at member
      · rw [heard, if_neg deadEnd] at member
        rcases List.mem_cons.mp member with same | later
        · rw [same]
          simp only [SourceNode.isDeadEnd, Bool.not_eq_true,
            Bool.or_eq_false_iff] at deadEnd
          exact deadEnd.1
        · exact inductionHypothesis later

end WalkEvent

namespace SourceNode

/-- What is heard of the tour of a node: the way into it, what is heard of its
children, and the way out of it where it can be walked to its end. -/
theorem mem_heard_tour_cases
    {node : SourceNode} {parent : Option SourceNode} {event : WalkEvent}
    (member : event ∈ WalkEvent.heard (node.tour parent)) :
    event = ⟨.enter, node, parent⟩ ∨
      (∃ child ∈ node.children,
        event ∈ WalkEvent.heard (child.tour (some node))) ∨
      (event = ⟨.exit, node, parent⟩ ∧ node.IsWalkable) := by
  rw [tour_eq] at member
  by_cases deadEnd : node.isDeadEnd = true
  · by_cases foreign : node.isForeign = true
    · simp [WalkEvent.heard, deadEnd, foreign] at member
      exact Or.inl member
    · simp [WalkEvent.heard, deadEnd, foreign] at member
  · rw [WalkEvent.heard, if_neg deadEnd] at member
    rcases List.mem_cons.mp member with entered | behind
    · exact Or.inl entered
    · rcases WalkEvent.heard_append_cases
          (node.children.flatMap (tour (some node)))
          [⟨.exit, node, parent⟩] with ⟨whole, passed, clear⟩ | stopped
      · rw [passed] at behind
        rcases List.mem_append.mp behind with inChildren | last
        · rw [← whole] at inChildren
          exact Or.inr (Or.inl
            (WalkEvent.exists_mem_heard_of_flatMap inChildren))
        · -- The way out is heard only once all below the node is passed.
          have own : event = ⟨.exit, node, parent⟩ := by
            simpa [WalkEvent.heard, deadEnd] using last
          refine Or.inr (Or.inr ⟨own, by simpa using deadEnd, ?_⟩)
          intro child isChild
          apply (isWalkable_iff_tour (some node) child).mpr
          intro moment inChild
          exact clear moment (List.mem_flatMap.mpr ⟨child, isChild, inChild⟩)
      · rw [stopped] at behind
        exact Or.inr (Or.inl (WalkEvent.exists_mem_heard_of_flatMap behind))

/-- A walk leaves only nodes with no dead end below them. -/
theorem isWalkable_of_exit_heard
    {node : SourceNode} {parent : Option SourceNode} {event : WalkEvent}
    (member : event ∈ WalkEvent.heard (node.tour parent))
    (leaves : event.phase = .exit) :
    event.node.IsWalkable := by
  induction node using induction_children generalizing parent with
  | step node inductionHypothesis =>
      rcases mem_heard_tour_cases member with
        entered | ⟨child, isChild, inChild⟩ | ⟨left, walkable⟩
      · simp [entered] at leaves
      · exact inductionHypothesis child isChild inChild
      · rw [left]
        exact walkable

end SourceNode

/-! ## Hooks that record -/

/-- The hooks that are registered, each known by a kind of node and a phase. -/
abbrev HookSet := NodeKind → Phase → Bool

def HookSet.all : HookSet :=
  fun _ _ => true

/-- The fault with which the call of a hook ends, by the number of calls before
it. -/
abbrev Failures := Nat → Option (Fault Error)

def Failures.none : Failures :=
  fun _ => .none

/-- One call fails, if there are so many. -/
def Failures.single (index : Int) (fault : Fault Error) : Failures :=
  fun number => if (number : Int) = index then some fault else .none

theorem Failures.single_of_ne
    {index : Int} {number : Nat} (other : (number : Int) ≠ index)
    (fault : Fault Error) : single index fault number = .none :=
  if_neg other

namespace WalkEvent

/-- Whether a hook for this moment is registered. -/
def isIn (registered : HookSet) (event : WalkEvent) : Bool :=
  match event.node.kind? with
  | none => false
  | some kind => registered kind event.phase

/-- Write a call down behind those before it, and then fail where this call has
to. -/
def record (failures : Failures) (event : WalkEvent) :
    Step (List WalkEvent) :=
  fun events =>
    match failures events.length with
    | none => (.ok (), events ++ [event])
    | some fault => (.error fault, events ++ [event])

def recordAll (failures : Failures) :
    List WalkEvent → Step (List WalkEvent)
  | [] => Step.skip
  | event :: rest =>
      Step.andThen (event.record failures) (recordAll failures rest)

end WalkEvent

/-- A recording hook for each kind and phase that is registered. -/
def recordingHooks (registered : HookSet) (failures : Failures) :
    Hooks (List WalkEvent) :=
  fun kind =>
    { enter := fun node parent =>
        if registered kind .enter then
          WalkEvent.record failures ⟨.enter, node, parent⟩
        else
          Step.skip
      exit := fun node parent =>
        if registered kind .exit then
          WalkEvent.record failures ⟨.exit, node, parent⟩
        else
          Step.skip }

namespace WalkEvent

theorem call_recordingHooks
    (registered : HookSet) (failures : Failures) (event : WalkEvent) :
    event.call (recordingHooks registered failures) =
      if event.isIn registered then event.record failures else Step.skip := by
  obtain ⟨phase, node, parent⟩ := event
  cases kind : node.kind? with
  | none =>
      simp [call, isIn, kind]
  | some kind =>
      cases phase <;> simp [call, isIn, kind, recordingHooks]

theorem callAll_recordingHooks
    (registered : HookSet) (failures : Failures) (events : List WalkEvent) :
    callAll (recordingHooks registered failures) events =
      recordAll failures
        (events.filter (fun event => event.isIn registered)) := by
  induction events with
  | nil =>
      rfl
  | cons event rest inductionHypothesis =>
      by_cases isRegistered : event.isIn registered = true
      · simp [callAll, call_recordingHooks, isRegistered, recordAll,
          inductionHypothesis]
      · simp [callAll, call_recordingHooks, isRegistered, inductionHypothesis]

theorem recordAll_append (failures : Failures) (first second : List WalkEvent) :
    recordAll failures (first ++ second) =
      (recordAll failures first).andThen (recordAll failures second) := by
  induction first with
  | nil =>
      rfl
  | cons event rest inductionHypothesis =>
      simp [recordAll, inductionHypothesis, Step.andThen_assoc]

/-- Calls of which none has to fail are all written down. -/
theorem recordAll_of_no_failure
    {failures : Failures} {events state : List WalkEvent}
    (passes : ∀ number, state.length ≤ number →
      number < state.length + events.length → failures number = none) :
    recordAll failures events state = (.ok (), state ++ events) := by
  induction events generalizing state with
  | nil =>
      simp [recordAll, Step.skip]
  | cons event rest inductionHypothesis =>
      have first : failures state.length = none := by
        apply passes state.length (Nat.le_refl _)
        simp
      have others :
          recordAll failures rest (state ++ [event]) =
            (.ok (), state ++ [event] ++ rest) := by
        apply inductionHypothesis
        intro number above below
        simp only [List.length_append, List.length_singleton] at above below
        apply passes number
        · omega
        · simp only [List.length_cons]
          omega
      simp [recordAll, Step.andThen, record, first, others]

/-- The call that has to fail is the last that is written down. -/
theorem recordAll_single_of_split
    (fault : Fault Error) (before after : List WalkEvent)
    (event : WalkEvent) :
    recordAll (.single before.length fault) (before ++ event :: after) [] =
      (.error fault, before ++ [event]) := by
  have passed :
      recordAll (.single before.length fault) before [] =
        (.ok (), before) := by
    apply recordAll_of_no_failure
    intro number _ below
    simp only [List.length_nil, Nat.zero_add] at below
    exact Failures.single_of_ne (by omega) fault
  have failing :
      Failures.single before.length fault before.length = some fault :=
    if_pos rfl
  rw [recordAll_append]
  simp [Step.andThen, passed, recordAll, record, failing]

theorem recordAll_single_of_lt
    {events : List WalkEvent} {index : Nat} (inside : index < events.length)
    (fault : Fault Error) :
    recordAll (.single index fault) events [] =
      (.error fault, events.take (index + 1)) := by
  have atSplit := recordAll_single_of_split fault (events.take index)
    (events.drop (index + 1)) events[index]
  have length : (events.take index).length = index := by
    rw [List.length_take]
    omega
  rw [length] at atSplit
  simpa using atSplit

theorem filter_isIn_all_heard (events : List WalkEvent) :
    (heard events).filter (fun event => event.isIn .all) = heard events := by
  apply List.filter_eq_self.mpr
  intro event member
  obtain ⟨kind, isKind⟩ :=
    SourceNode.exists_kind_of_not_isMissing (not_isMissing_of_mem_heard member)
  simp [isIn, isKind, HookSet.all]

/-- The end of a walk does not hang on what was recorded, and adds nothing to
it. -/
theorem settle_apply (events state other : List WalkEvent) :
    settle events state = ((settle events other).1, state) := by
  unfold settle
  cases events.find? (fun event => event.node.isDeadEnd) <;> rfl

end WalkEvent

/-! ## Records of walks -/

namespace SourceNode

/-- The walk with a recording hook for every kind and phase, none of which
fails. -/
def recordedWalk (root : SourceNode) :
    Except (Fault Error) Unit × List WalkEvent :=
  root.walk (recordingHooks .all .none) []

theorem walk_recordingHooks
    (root : SourceNode) (registered : HookSet) (failures : Failures) :
    root.walk (recordingHooks registered failures) =
      (WalkEvent.recordAll failures
        ((WalkEvent.heard (root.tour none)).filter
          (fun event => event.isIn registered))).andThen
        (WalkEvent.settle (root.tour none)) := by
  rw [walk, visit_eq_follow, WalkEvent.follow,
    WalkEvent.callAll_recordingHooks]

theorem recordedWalk_eq (root : SourceNode) :
    root.recordedWalk =
      WalkEvent.settle (root.tour none)
        (WalkEvent.heard (root.tour none)) := by
  have recorded :
      WalkEvent.recordAll .none (WalkEvent.heard (root.tour none)) [] =
        (.ok (), WalkEvent.heard (root.tour none)) :=
    WalkEvent.recordAll_of_no_failure (fun _ _ _ => rfl)
  rw [recordedWalk, walk_recordingHooks, WalkEvent.filter_isIn_all_heard]
  simp [Step.andThen, recorded]

theorem recordedWalk_snd (root : SourceNode) :
    root.recordedWalk.2 = WalkEvent.heard (root.tour none) := by
  rw [recordedWalk_eq, WalkEvent.settle_apply _ _ []]

theorem recordedWalk_of_walkable
    {root : SourceNode} (walkable : root.IsWalkable) :
    root.recordedWalk = (.ok (), root.tour none) := by
  have passable := (isWalkable_iff_tour none root).mp walkable
  have noDeadEnd :
      (root.tour none).find? (fun event => event.node.isDeadEnd) = none := by
    simpa using passable
  rw [recordedWalk_eq, WalkEvent.heard_of_passable passable]
  simp [WalkEvent.settle, noDeadEnd, Step.skip]

/-- The record up to a dead end: all that the tour holds before it. -/
theorem recordedWalk_of_deadEnd
    {root : SourceNode} {bad : Occurrence}
    (first : (root.occurrences []).find?
      (fun occurrence => occurrence.node.isDeadEnd) = some bad) :
    ∃ before after,
      root.tour none = before ++ bad.event .enter :: after ∧
        (∀ event ∈ before, event.node.isDeadEnd = false) ∧
        root.recordedWalk =
          (.error (.unsupportedSource bad.node),
            before ++ if bad.node.isForeign then [bad.event .enter] else []) := by
  have firstEvent :
      (root.tour none).find? (fun event => event.node.isDeadEnd) =
        some (bad.event .enter) := by
    have sameFirst := find?_tour [] root
    rw [List.find?_map] at sameFirst
    exact sameFirst.trans (congrArg (Option.map (Occurrence.event .enter)) first)
  obtain ⟨deadEnd, before, after, split, passed⟩ :=
    List.find?_eq_some_iff_append.mp firstEvent
  have passable : ∀ event ∈ before, event.node.isDeadEnd = false := by
    simpa using passed
  refine ⟨before, after, split, passable, ?_⟩
  have heard :
      WalkEvent.heard (root.tour none) =
        before ++ if bad.node.isForeign then [bad.event .enter] else [] := by
    rw [split, WalkEvent.heard_append_of_passable passable, WalkEvent.heard,
      if_pos deadEnd]
    rfl
  rw [recordedWalk_eq, heard]
  simp [WalkEvent.settle, firstEvent, Step.stop, Occurrence.event]

/-- A record holds no way out of a dead end or of a node around one. -/
theorem not_exit_of_deadEnd
    {root : SourceNode} {bad : Occurrence} {event : WalkEvent}
    (isNode : bad ∈ root.occurrences [])
    (deadEnd : bad.node.isDeadEnd = true)
    (recorded : event ∈ root.recordedWalk.2)
    (leaves : event.phase = .exit) :
    event.node ≠ bad.node ∧ event.node ∉ bad.ancestors := by
  rw [recordedWalk_snd] at recorded
  have walkable := isWalkable_of_exit_heard recorded leaves
  constructor
  · intro same
    rw [same] at walkable
    cases walkable with
    | node passable _ =>
        simp [deadEnd] at passable
  · intro around
    rcases not_isWalkable_of_mem_ancestors isNode deadEnd event.node around with
      outside | blocked
    · simp at outside
    · exact blocked walkable

/-- A walk with recording hooks of every kind succeeds on the trees without dead
ends.  It then leaves the whole tour, which enters and leaves every node once.
On any other tree it fails at the first dead end and leaves the tour cut there:
all before it, the way into it where it is a foreign node, and no way out of it or
of a node around it. -/
theorem recordedWalk_is_tour (root : SourceNode) :
    (root.recordedWalk.1 = .ok () ↔
      ∀ occurrence ∈ root.occurrences [],
        occurrence.node.isDeadEnd = false) ∧
    match (root.occurrences []).find?
        (fun occurrence => occurrence.node.isDeadEnd) with
    | none =>
        root.recordedWalk.2 = root.tour none ∧
          root.recordedWalk.2.filter (fun event => event.phase = .enter) =
            (root.occurrences []).map (Occurrence.event .enter) ∧
          (root.recordedWalk.2.filter
              (fun event => event.phase = .exit)).Perm
            ((root.occurrences []).map (Occurrence.event .exit))
    | some bad =>
        root.recordedWalk.1 = .error (.unsupportedSource bad.node) ∧
          (∃ before after,
            root.tour none = before ++ bad.event .enter :: after ∧
              (∀ event ∈ before, event.node.isDeadEnd = false) ∧
              root.recordedWalk.2 =
                before ++
                  if bad.node.isForeign then [bad.event .enter] else []) ∧
          ∀ event ∈ root.recordedWalk.2, event.phase = .exit →
            event.node ≠ bad.node ∧ event.node ∉ bad.ancestors := by
  cases first : (root.occurrences []).find?
      (fun occurrence => occurrence.node.isDeadEnd) with
  | none =>
      have passable :
          ∀ occurrence ∈ root.occurrences [],
            occurrence.node.isDeadEnd = false := by
        simpa using first
      have recorded :=
        recordedWalk_of_walkable ((isWalkable_iff [] root).mpr passable)
      rw [recorded]
      exact ⟨iff_of_true rfl passable, rfl, filter_enter_tour [] root,
        perm_filter_exit_tour [] root⟩
  | some bad =>
      have isNode := List.mem_of_find?_eq_some first
      have deadEnd : bad.node.isDeadEnd = true := by
        simpa using List.find?_some first
      obtain ⟨before, after, split, passable, recorded⟩ :=
        recordedWalk_of_deadEnd first
      have fails :
          root.recordedWalk.1 = .error (.unsupportedSource bad.node) := by
        rw [recorded]
      have blocked :
          ¬ ∀ occurrence ∈ root.occurrences [],
            occurrence.node.isDeadEnd = false := by
        intro all
        have passableBad := all bad isNode
        simp [deadEnd] at passableBad
      refine ⟨iff_of_false ?_ blocked, fails,
        ⟨before, after, split, passable, ?_⟩, ?_⟩
      · simp [fails]
      · rw [recorded]
      · intro event inRecord leaves
        exact not_exit_of_deadEnd isNode deadEnd inRecord leaves

/-- With fewer hooks a walk leaves the calls of those hooks among the calls of
all.  Where the call with a given number fails, it is the last that is left and its
fault ends the walk; with no such call the walk ends as the one with all hooks. -/
theorem walk_of_registered_hooks
    (root : SourceNode) (registered : HookSet) (index : Int)
    (fault : Fault Error) :
    let full := root.recordedWalk
    let kept := full.2.filter (fun event => event.isIn registered)
    root.walk (recordingHooks registered (.single index fault)) [] =
      if 0 ≤ index ∧ index < kept.length then
        (.error fault, kept.take (index.toNat + 1))
      else
        (full.1, kept) := by
  intro full kept
  have walked :
      root.walk (recordingHooks registered (.single index fault)) [] =
        (WalkEvent.recordAll (.single index fault) kept).andThen
          (WalkEvent.settle (root.tour none)) [] := by
    rw [walk_recordingHooks, ← recordedWalk_snd]
  rw [walked]
  by_cases inside : 0 ≤ index ∧ index < kept.length
  · obtain ⟨number, rfl⟩ := Int.eq_ofNat_of_zero_le inside.1
    have fails :
        WalkEvent.recordAll (.single number fault) kept [] =
          (.error fault, kept.take (number + 1)) := by
      apply WalkEvent.recordAll_single_of_lt
      omega
    rw [if_pos inside]
    simp [Step.andThen, fails]
  · have passes :
        WalkEvent.recordAll (.single index fault) kept [] = (.ok (), kept) := by
      apply WalkEvent.recordAll_of_no_failure
      intro number _ below
      simp only [List.length_nil, Nat.zero_add] at below
      apply Failures.single_of_ne
      intro same
      apply inside
      omega
    have ended :
        full =
          WalkEvent.settle (root.tour none)
            (WalkEvent.heard (root.tour none)) :=
      recordedWalk_eq root
    rw [if_neg inside, ended]
    simp only [Step.andThen, passes]
    exact WalkEvent.settle_apply (root.tour none) kept _

end SourceNode

end SexprCalls
