import Mathlib.Algebra.BigOperators.Group.List.Basic
import Mathlib.Algebra.GroupWithZero.Nat

/-! Runs of a deterministic machine: a state is driven through a finite list of
events. `Always` speaks about every state a run passes through, `EachStep`
about every step it takes. -/

namespace RunnerCm33.Runs

universe u v w
variable {State : Type u} {Event : Type v} {Abstract : Type w}

/-- The state after all events. -/
def run (step : State → Event → State) (state : State) (events : List Event) : State :=
  events.foldl step state

/-- `P` holds in every state the run passes through, both ends included. -/
def Always (step : State → Event → State) (P : State → Prop) (state : State)
    (events : List Event) : Prop :=
  ∀ past, past <+: events → P (run step state past)

/-- `G` holds of every event together with the state it meets. -/
def EachStep (step : State → Event → State) (G : State → Event → Prop) : State → List Event → Prop
  | _, [] => True
  | state, event :: rest => G state event ∧ EachStep step G (step state event) rest

instance EachStep.decidable {step : State → Event → State} {G : State → Event → Prop}
    [∀ state event, Decidable (G state event)] :
    (state : State) → (events : List Event) → Decidable (EachStep step G state events)
  | _, [] => inferInstanceAs (Decidable True)
  | state, event :: rest =>
    have : Decidable (EachStep step G (step state event) rest) := EachStep.decidable _ rest
    inferInstanceAs (Decidable (_ ∧ _))

variable {step : State → Event → State} {P : State → Prop} {G H : State → Event → Prop}
  {state : State} {event : Event} {events more : List Event}

@[simp] theorem run_nil : run step state [] = state := rfl

@[simp] theorem run_cons : run step state (event :: events) = run step (step state event) events := rfl

@[simp] theorem run_append :
    run step state (events ++ more) = run step (run step state events) more :=
  List.foldl_append

theorem run_flatMap (steps : Abstract → List Event) (state : State) (abstracts : List Abstract) :
    run step state (abstracts.flatMap steps) =
      run (fun state abstract => run step state (steps abstract)) state abstracts := by
  induction abstracts generalizing state with
  | nil => rfl
  | cons first rest ih =>
    rw [List.flatMap_cons, run_append, ih]
    rfl

theorem Always.now (always : Always step P state events) : P state :=
  always [] List.nil_prefix

theorem Always.last (always : Always step P state events) : P (run step state events) :=
  always events List.prefix_rfl

@[simp] theorem always_nil : Always step P state [] ↔ P state := by
  constructor
  · exact Always.now
  · intro holds past before
    rw [List.prefix_nil.mp before]
    exact holds

@[simp] theorem always_cons :
    Always step P state (event :: events) ↔ P state ∧ Always step P (step state event) events := by
  constructor
  · intro always
    exact ⟨always.now, fun past before => always (event :: past) (List.cons_prefix_cons.mpr ⟨rfl, before⟩)⟩
  · intro ⟨now, later⟩ past before
    cases past with
    | nil => exact now
    | cons first past =>
      obtain ⟨rfl, tail⟩ := List.cons_prefix_cons.mp before
      exact later past tail

/-- An invariant already known to hold throughout may be added to the claim. -/
theorem always_and_iff {Q : State → Prop} (known : Always step Q state events) :
    Always step (fun state => Q state ∧ P state) state events ↔ Always step P state events := by
  constructor
  · exact fun always past before => (always past before).2
  · exact fun always past before => ⟨known past before, always past before⟩

/-- A condition on events alone holds at every step of a run of such events. -/
theorem EachStep.of_forall {C : Event → Prop} (each : ∀ event ∈ events, C event) :
    EachStep step (fun _ event => C event) state events := by
  induction events generalizing state with
  | nil => trivial
  | cons event rest ih =>
    exact ⟨each event (by simp), ih fun other member => each other (by simp [member])⟩

theorem eachStep_append : EachStep step G state (events ++ more) ↔
    EachStep step G state events ∧ EachStep step G (run step state events) more := by
  induction events generalizing state with
  | nil => simp [EachStep]
  | cons event rest ih => rw [List.cons_append, EachStep, EachStep, ih, run_cons, and_assoc]

theorem EachStep.before {past : List Event} (steps : EachStep step G state events) (before : past <+: events) :
    EachStep step G state past := by
  obtain ⟨more, rfl⟩ := before
  exact (eachStep_append.mp steps).1

/-- Invariant rule: what every guarded step preserves holds throughout. -/
theorem EachStep.always (steps : EachStep step G state events) (init : P state)
    (preserved : ∀ state event, P state → G state event → P (step state event)) :
    Always step P state events := by
  induction events generalizing state with
  | nil => simpa using init
  | cons event rest ih => exact always_cons.mpr ⟨init, ih steps.2 (preserved _ _ init steps.1)⟩

/-- Exactness rule: if, from states with `P`, an admitted step keeps `P`
precisely when `G` holds of it, then a run keeps `P` throughout precisely when
`G` holds at each of its steps. -/
theorem always_iff_eachStep (init : P state) (admitted : EachStep step H state events)
    (exact' : ∀ state event, P state → H state event → (P (step state event) ↔ G state event)) :
    Always step P state events ↔ EachStep step G state events := by
  induction events generalizing state with
  | nil => simpa [EachStep] using init
  | cons event rest ih =>
    rw [always_cons, EachStep]
    constructor
    · intro ⟨_, later⟩
      exact ⟨(exact' _ _ init admitted.1).mp later.now, (ih later.now admitted.2).mp later⟩
    · intro ⟨holds, later⟩
      have kept := (exact' _ _ init admitted.1).mpr holds
      exact ⟨init, (ih kept admitted.2).mpr later⟩

/-- Simulation rule: a relation kept by every pair of corresponding steps
relates the ends of corresponding runs. -/
theorem run_simulates {abstractStep : Abstract → Event → Abstract} {R : State → Abstract → Prop}
    {abstract : Abstract} (init : R state abstract)
    (simulated : ∀ state abstract event, R state abstract →
      R (step state event) (abstractStep abstract event)) :
    R (run step state events) (run abstractStep abstract events) := by
  induction events generalizing state abstract with
  | nil => exact init
  | cons event rest ih => exact ih (simulated _ _ _ init)

/-- Cost rule: what every step adds to a measure at most, a run adds at most in sum. -/
theorem run_measure_le (measure : State → ℕ) (cost : Event → ℕ)
    (step_le : ∀ state event, measure (step state event) ≤ measure state + cost event) :
    measure (run step state events) ≤ measure state + (events.map cost).sum := by
  induction events generalizing state with
  | nil => exact Nat.le_refl _
  | cons event rest ih =>
    have first := step_le state event
    have later := @ih (step state event)
    rw [run_cons, List.map_cons, List.sum_cons]
    omega

/-- Exact cost rule: a run adds the whole sum precisely when every step adds all of its
own cost. -/
theorem run_measure_eq_iff (measure : State → ℕ) (cost : Event → ℕ)
    (step_le : ∀ state event, measure (step state event) ≤ measure state + cost event)
    (exact' : ∀ state event, measure (step state event) = measure state + cost event ↔ G state event) :
    measure (run step state events) = measure state + (events.map cost).sum ↔ EachStep step G state events := by
  induction events generalizing state with
  | nil => simp [EachStep]
  | cons event rest ih =>
    have first := step_le state event
    have later : measure (run step (step state event) rest) ≤ _ := run_measure_le measure cost step_le
    rw [run_cons, List.map_cons, List.sum_cons, EachStep, ← exact', ← ih]
    omega

end RunnerCm33.Runs
