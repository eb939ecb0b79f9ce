import SexprCalls.Error

/-!
# Steps over a state

A step changes a state and either goes on or stops with a fault.  The state in
which it stops is kept, so that what was done before the fault stays visible.
-/

namespace SexprCalls

/-- A change of a state that may stop with a fault. -/
abbrev Step (σ : Type) := σ → Except (Fault Error) Unit × σ

namespace Step

variable {σ : Type}

def skip : Step σ :=
  fun state => (.ok (), state)

def stop (fault : Fault Error) : Step σ :=
  fun state => (.error fault, state)

/-- The step that changes the state and goes on. -/
def change (update : σ → σ) : Step σ :=
  fun state => (.ok (), update state)

/-- Two steps, one after the other; the second is left out where the first
stops. -/
def andThen (first second : Step σ) : Step σ :=
  fun state =>
    match first state with
    | (.ok (), state) => second state
    | (.error fault, state) => (.error fault, state)

end Step
end SexprCalls
