import RunnerCm33.Lib.Runs

/-! Linearization: a machine whose steps interleave may commit operations of an atomic
one. If each step commits what it does to the atomic state, then so does a whole run, in
the order of its commits. -/

namespace RunnerCm33.Linearization

open RunnerCm33.Runs

universe u v w x
variable {State : Type u} {Event : Type v} {Operation : Type w} {Abstract : Type x}

/-- The operations that a run commits, each at the step at which it takes effect. -/
def committed (step : State → Event → State) (commit : State → Event → List Operation) :
    State → List Event → List Operation
  | _, [] => []
  | state, event :: rest => commit state event ++ committed step commit (step state event) rest

variable {step : State → Event → State} {commit : State → Event → List Operation}
  {apply : Abstract → Operation → Abstract} {R : State → Abstract → Prop} {G : State → Event → Prop}
  {state : State} {abstract : Abstract} {event : Event} {events more : List Event}

@[simp] theorem committed_nil : committed step commit state [] = [] := rfl

@[simp] theorem committed_cons : committed step commit state (event :: events) =
    commit state event ++ committed step commit (step state event) events := rfl

/-- Linearization rule: where every guarded step does to the atomic state what its commits
do, the run ends in the atomic run of all its commits. -/
theorem run_linearized (init : R state abstract) (steps : EachStep step G state events)
    (linearizes : ∀ state abstract event, R state abstract → G state event →
      R (step state event) (run apply abstract (commit state event))) :
    R (run step state events) (run apply abstract (committed step commit state events)) := by
  induction events generalizing state abstract with
  | nil => exact init
  | cons event rest ih =>
    rw [committed_cons, run_append]
    exact ih (linearizes _ _ _ init steps.1) steps.2

end RunnerCm33.Linearization
