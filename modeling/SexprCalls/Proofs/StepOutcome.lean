import SexprCalls.SourceNode.Walk

/-!
# How a step ends

What becomes of a step is told by two things: the first fault on its way, and
the state that it reaches where there is none.  Steps one after the other end
with the first of their faults.
-/

namespace SexprCalls

/-- Of the faults in a list, the one of its head comes first. -/
theorem findSome?_cons_eq_or
    {α β : Type} (fault? : α → Option β) (head : α) (tail : List α) :
    (head :: tail).findSome? fault? =
      (fault? head).or (tail.findSome? fault?) := by
  rw [List.findSome?_cons]
  cases fault? head <;> rfl

namespace Step

variable {σ : Type}

@[simp]
theorem skip_andThen (step : Step σ) : skip.andThen step = step :=
  rfl

@[simp]
theorem stop_andThen (fault : Fault Error) (step : Step σ) :
    (stop fault).andThen step = stop fault :=
  rfl

@[simp]
theorem andThen_skip (step : Step σ) : step.andThen skip = step := by
  funext state
  rcases ended : step state with ⟨fault | _, reached⟩ <;>
    simp [andThen, ended, skip]

theorem andThen_assoc (first second third : Step σ) :
    (first.andThen second).andThen third =
      first.andThen (second.andThen third) := by
  funext state
  rcases ended : first state with ⟨fault | _, reached⟩ <;>
    simp [andThen, ended]

/-- A step from a state ends with the given fault, or, where there is none, in
the given state. -/
def EndsAs (step : Step σ) (state : σ)
    (fault? : Option (Fault Error)) (final : σ) : Prop :=
  match fault? with
  | some fault => (step state).1 = .error fault
  | none => step state = (.ok (), final)

theorem endsAs_skip (state : σ) : EndsAs skip state none state :=
  rfl

theorem endsAs_change (update : σ → σ) (state : σ) :
    EndsAs (change update) state none (update state) :=
  rfl

theorem endsAs_stop (fault : Fault Error) (state final : σ) :
    EndsAs (stop fault) state (some fault) final :=
  rfl

theorem EndsAs.exists_stopped
    {step : Step σ} {state final : σ} {fault : Fault Error}
    (ends : EndsAs step state (some fault) final) :
    ∃ reached, step state = (.error fault, reached) :=
  ⟨(step state).2, Prod.ext ends rfl⟩

theorem EndsAs.passed
    {step : Step σ} {state final : σ}
    (ends : EndsAs step state none final) :
    step state = (.ok (), final) :=
  ends

theorem EndsAs.result
    {step : Step σ} {state final : σ} {fault? : Option (Fault Error)} :
    EndsAs step state fault? final →
      (step state).1 =
        match fault? with
        | some fault => .error fault
        | none => .ok () := by
  intro ends
  cases fault? with
  | some fault =>
      exact ends
  | none =>
      exact congrArg Prod.fst ends

/-- The second step has to be looked at only where the first goes through. -/
theorem EndsAs.andThen
    {first second : Step σ} {state middle final : σ}
    {firstFault? secondFault? : Option (Fault Error)}
    (firstEnds : EndsAs first state firstFault? middle)
    (secondEnds :
      firstFault? = none → EndsAs second middle secondFault? final) :
    EndsAs (first.andThen second) state (firstFault?.or secondFault?)
      final := by
  cases firstFault? with
  | some fault =>
      obtain ⟨reached, stopped⟩ := firstEnds.exists_stopped
      have same : first.andThen second state = (.error fault, reached) := by
        rw [Step.andThen, stopped]
      exact congrArg Prod.fst same
  | none =>
      have same : first.andThen second state = second middle := by
        rw [Step.andThen, firstEnds.passed]
      have rest := secondEnds rfl
      cases secondFault? with
      | some fault =>
          exact (congrArg Prod.fst same).trans rest
      | none =>
          exact same.trans rest

end Step

namespace Hook

variable {σ : Type}

/-- A node ends with the fault of its own enter step, or else with the one
from below it; a way out is needed only where neither stops. -/
theorem around_endsAs
    {hook : Hook σ} {node : SourceNode} {parent : Option SourceNode}
    {below : Step σ} {start inside done final : σ}
    {enterFault? belowFault? : Option (Fault Error)}
    (enters : (hook.enter node parent).EndsAs start enterFault? inside)
    (walks : enterFault? = none → below.EndsAs inside belowFault? done)
    (exits : enterFault? = none →
      (hook.exit node parent).EndsAs done none final) :
    (hook.around node parent below).EndsAs start
      (enterFault?.or belowFault?) final := by
  refine enters.andThen ?_
  intro entered
  have leaves := (walks entered).andThen (fun _ => exits entered)
  rw [Option.or_none] at leaves
  exact leaves

end Hook
end SexprCalls
