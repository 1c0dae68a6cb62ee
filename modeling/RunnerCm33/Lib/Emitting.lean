import Mathlib.Algebra.BigOperators.Group.List.Basic
import Mathlib.Algebra.GroupWithZero.Nat

/-! Routines that emit events as they go and may stop before they return. What one
routine does is a list of events and a result; the rules carry properties of both from
the parts of a routine to the whole. -/

namespace RunnerCm33.Emitting

universe u

/-- What a routine has emitted, and how it came to its end. -/
structure Emits (Event Stop : Type u) (Value : Type u) where
  emitted : List Event
  result : Except Stop Value

namespace Emits

variable {Event Stop Value Next : Type u}

def emit (events : List Event) : Emits Event Stop PUnit := ⟨events, .ok ⟨⟩⟩

def stop (reason : Stop) : Emits Event Stop Value := ⟨[], .error reason⟩

instance : Monad (Emits Event Stop) where
  pure value := ⟨[], .ok value⟩
  bind routine next :=
    match routine.result with
    | .ok value => ⟨routine.emitted ++ (next value).emitted, (next value).result⟩
    | .error reason => ⟨routine.emitted, .error reason⟩

/-- Every event satisfies a condition. -/
def Only (C : Event → Prop) (routine : Emits Event Stop Value) : Prop :=
  ∀ event ∈ routine.emitted, C event

/-- The events weigh no more than a bound, each by itself. -/
def Weighs (w : Event → ℕ) (bound : ℕ) (routine : Emits Event Stop Value) : Prop :=
  (routine.emitted.map w).sum ≤ bound

/-- A routine that stops tells the reason by its last event. -/
def StopsWith (L : Stop → Event → Prop) (routine : Emits Event Stop Value) : Prop :=
  ∀ reason, routine.result = .error reason →
    ∃ before last, routine.emitted = before ++ [last] ∧ L reason last

/-- A routine that returns has emitted a certain event last. -/
def ReturnsWith (last : Event) (routine : Emits Event Stop Value) : Prop :=
  ∀ value, routine.result = .ok value → ∃ before, routine.emitted = before ++ [last]

/-- A routine that returns has emitted certain events in a row. -/
def Includes (block : List Event) (routine : Emits Event Stop Value) : Prop :=
  ∀ value, routine.result = .ok value → block <:+: routine.emitted

variable {routine : Emits Event Stop Value} {next : Value → Emits Event Stop Next} {value : Value}
  {result : Next} {reason : Stop} {events : List Event} {C : Event → Prop} {L : Stop → Event → Prop}

@[simp] theorem pure_emitted : (pure value : Emits Event Stop Value).emitted = [] := rfl
@[simp] theorem pure_result : (pure value : Emits Event Stop Value).result = .ok value := rfl
@[simp] theorem emit_emitted : (emit events : Emits Event Stop PUnit).emitted = events := rfl
@[simp] theorem emit_result : (emit events : Emits Event Stop PUnit).result = .ok ⟨⟩ := rfl
@[simp] theorem stop_emitted : (stop reason : Emits Event Stop Value).emitted = [] := rfl
@[simp] theorem stop_result : (stop reason : Emits Event Stop Value).result = .error reason := rfl

theorem bind_of_ok (returned : routine.result = .ok value) :
    routine >>= next = ⟨routine.emitted ++ (next value).emitted, (next value).result⟩ := by
  simp only [bind, returned]

theorem bind_of_error (stopped : routine.result = .error reason) :
    routine >>= next = ⟨routine.emitted, .error reason⟩ := by
  simp only [bind, stopped]

@[simp] theorem emit_bind (next : PUnit → Emits Event Stop Next) :
    emit events >>= next = ⟨events ++ (next ⟨⟩).emitted, (next ⟨⟩).result⟩ := rfl

theorem bind_result_iff : (routine >>= next).result = .ok result ↔
    ∃ value, routine.result = .ok value ∧ (next value).result = .ok result := by
  cases first : routine.result with
  | error reason => simp [bind_of_error first]
  | ok value => simp [bind_of_ok first]

theorem bind_stops_iff : (routine >>= next).result = .error reason ↔ routine.result = .error reason ∨
    ∃ value, routine.result = .ok value ∧ (next value).result = .error reason := by
  cases first : routine.result with
  | error early => simp [bind_of_error first]
  | ok value => simp [bind_of_ok first]

theorem bind_returns (returned : (routine >>= next).result = .ok result) :
    ∃ value, routine.result = .ok value ∧ (next value).result = .ok result ∧
      (routine >>= next).emitted = routine.emitted ++ (next value).emitted := by
  cases first : routine.result with
  | error reason =>
    rw [bind_of_error first] at returned
    cases returned
  | ok value =>
    rw [bind_of_ok first] at returned ⊢
    exact ⟨value, rfl, returned, rfl⟩

/-- In a sequence the second part matters only for the values that the first one returns. -/
theorem Only.bind_of (first : routine.Only C) (then_ : ∀ value, routine.result = .ok value → (next value).Only C) :
    (routine >>= next).Only C := by
  intro event member
  cases returned : routine.result with
  | error reason =>
    rw [bind_of_error returned] at member
    exact first event member
  | ok value =>
    rw [bind_of_ok returned] at member
    rcases List.mem_append.mp member with early | late
    · exact first event early
    · exact then_ value returned event late

theorem Only.bind (first : routine.Only C) (then_ : ∀ value, (next value).Only C) :
    (routine >>= next).Only C :=
  first.bind_of fun value _ => then_ value

theorem Only.pure (value : Value) : (Pure.pure value : Emits Event Stop Value).Only C := by
  simp [Only]

theorem Only.mono {D : Event → Prop} (only : routine.Only C) (weaker : ∀ event, C event → D event) :
    routine.Only D :=
  fun event member => weaker event (only event member)

theorem Only.emit (each : ∀ event ∈ events, C event) : (emit events : Emits Event Stop PUnit).Only C := each

theorem Weighs.mono {w : Event → ℕ} {bound more : ℕ} (weighs : routine.Weighs w bound) (le : bound ≤ more) :
    routine.Weighs w more := Nat.le_trans weighs le

theorem Weighs.bind {w : Event → ℕ} {bound more : ℕ} (first : routine.Weighs w bound)
    (then_ : ∀ value, (next value).Weighs w more) : (routine >>= next).Weighs w (bound + more) := by
  unfold Weighs
  cases returned : routine.result with
  | error reason =>
    rw [bind_of_error returned]
    exact Nat.le_trans first (Nat.le_add_right ..)
  | ok value =>
    rw [bind_of_ok returned, List.map_append, List.sum_append]
    exact Nat.add_le_add first (then_ value)

/-- A part that emits only if it stops weighs nothing in front of another. -/
theorem Weighs.bind_silent {w : Event → ℕ} {bound : ℕ} (first : routine.Weighs w bound)
    (silent : ∀ value, routine.result = .ok value → routine.emitted = [])
    (then_ : ∀ value, (next value).Weighs w bound) : (routine >>= next).Weighs w bound := by
  cases returned : routine.result with
  | error reason =>
    rw [bind_of_error returned]
    exact first
  | ok value =>
    rw [bind_of_ok returned, silent value returned]
    exact then_ value

theorem Weighs.pure {w : Event → ℕ} (value : Value) : (Pure.pure value : Emits Event Stop Value).Weighs w 0 :=
  Nat.le_refl 0

/-- Whatever stops, in the first part or behind it, has emitted its last event just before. -/
theorem StopsWith.bind_of (first : routine.StopsWith L)
    (then_ : ∀ value, routine.result = .ok value → (next value).StopsWith L) :
    (routine >>= next).StopsWith L := by
  intro reason stopped
  cases returned : routine.result with
  | error early =>
    rw [bind_of_error returned] at stopped ⊢
    obtain rfl := Except.error.inj stopped
    exact first early returned
  | ok value =>
    rw [bind_of_ok returned] at stopped ⊢
    obtain ⟨before, last, emitted, tells⟩ := then_ value returned reason stopped
    exact ⟨routine.emitted ++ before, last, by simp [emitted], tells⟩

theorem StopsWith.bind (first : routine.StopsWith L) (then_ : ∀ value, (next value).StopsWith L) :
    (routine >>= next).StopsWith L :=
  first.bind_of fun value _ => then_ value

theorem StopsWith.of_ok (returned : routine.result = .ok value) : routine.StopsWith L := by
  intro reason stopped
  rw [returned] at stopped
  cases stopped

theorem ReturnsWith.bind {last : Event} (then_ : ∀ value, (next value).ReturnsWith last) :
    (routine >>= next).ReturnsWith last := by
  intro result returned
  obtain ⟨value, -, behind, emitted⟩ := bind_returns returned
  obtain ⟨before, same⟩ := then_ value result behind
  exact ⟨routine.emitted ++ before, by rw [emitted, same, List.append_assoc]⟩

theorem Includes.emit (events : List Event) : (emit events : Emits Event Stop PUnit).Includes events :=
  fun _ _ => List.infix_rfl

theorem Includes.first {block : List Event} (part : routine.Includes block) :
    (routine >>= next).Includes block := by
  intro result returned
  obtain ⟨value, early, -, emitted⟩ := bind_returns returned
  rw [emitted]
  exact (part value early).trans (List.prefix_append ..).isInfix

theorem Includes.later {block : List Event} (part : ∀ value, (next value).Includes block) :
    (routine >>= next).Includes block := by
  intro result returned
  obtain ⟨value, -, late, emitted⟩ := bind_returns returned
  rw [emitted]
  exact (part value result late).trans (List.suffix_append ..).isInfix

theorem StopsWith.tell {last : Event} (before : List Event) (emitted : routine.emitted = before ++ [last])
    (stopped : routine.result = .error reason) (tells : L reason last) : routine.StopsWith L := by
  intro other same
  obtain rfl := Except.error.inj (stopped.symm.trans same)
  exact ⟨before, last, emitted, tells⟩

end Emits

end RunnerCm33.Emitting
