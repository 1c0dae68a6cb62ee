import RunnerCm33.Lib.Runs
import Mathlib.Algebra.Group.Nat.Defs

/-! The timestamps of `et_pal_current_ticks`: a 64-bit value read from the 32-bit
`DWT->CYCCNT`, which wraps and which `StartMeasurements` resets. -/

namespace RunnerCm33

open RunnerCm33.Runs

/-- The counter, its value when it was last sampled for a timestamp, and the
timestamps returned so far with the newest first. The program keeps the counter only. -/
structure Clock where
  cyccnt : UInt32
  sampled : UInt32
  returned : List UInt64
deriving DecidableEq, Repr

inductive ClockEvent where
  | etPalCurrentTicks
  | startMeasurements
  | stopMeasurements
  | elapse (cycles : ℕ)
deriving DecidableEq, Repr

namespace Clock

def armPmuCyccntReset (clock : Clock) : Clock := { clock with cyccnt := 0 }

def armPmuGetCcntr (clock : Clock) : UInt32 := clock.cyccnt

def etPalCurrentTicks (clock : Clock) : UInt64 := clock.armPmuGetCcntr.toUInt64

/-- The counter resets in `et_pal_init`. -/
def etPalInit : Clock := armPmuCyccntReset ⟨0, 0, []⟩

def step (clock : Clock) : ClockEvent → Clock
  | .etPalCurrentTicks =>
    { clock with sampled := clock.cyccnt, returned := clock.etPalCurrentTicks :: clock.returned }
  | .startMeasurements => clock.armPmuCyccntReset
  -- the cycles are read and not used
  | .stopMeasurements => clock
  | .elapse cycles => { clock with cyccnt := clock.cyccnt + .ofNat cycles }

/-- No timestamp is smaller than an earlier one. -/
def InOrder (clock : Clock) : Prop :=
  clock.returned.Pairwise fun later earlier => earlier ≤ later

/-- The timestamps are in order, and would be with one more call at this moment. -/
def NeverBackwards (clock : Clock) : Prop :=
  clock.InOrder ∧ ∀ earlier ∈ clock.returned, earlier ≤ clock.etPalCurrentTicks

/-- The cycles after which the counter wraps to zero. -/
def untilWrap (clock : Clock) : ℕ := 2 ^ 32 - clock.cyccnt.toNat

/-- Where the counter may go: no reset once a positive value was sampled, and no wrap,
whole turns apart, that does not come back up to the value last sampled. -/
def StaysAhead (clock : Clock) : ClockEvent → Prop
  | .etPalCurrentTicks | .stopMeasurements => True
  | .startMeasurements => clock.sampled = 0
  | .elapse cycles =>
      cycles % 2 ^ 32 < clock.untilWrap ∨
        clock.untilWrap + clock.sampled.toNat ≤ cycles % 2 ^ 32

instance (clock : Clock) (event : ClockEvent) : Decidable (clock.StaysAhead event) := by
  unfold StaysAhead
  cases event <;> infer_instance

/-- The newest timestamp is the last sample. -/
def Sampled (clock : Clock) : Prop := clock.sampled.toUInt64 = clock.returned.headD 0

variable {clock : Clock}

private theorem step_sampled (sampled : clock.Sampled) (event : ClockEvent) : (clock.step event).Sampled := by
  cases event with
  | etPalCurrentTicks => rfl
  | startMeasurements | stopMeasurements | elapse cycles => exact sampled

private theorem forall_le_iff (sampled : clock.Sampled) (ordered : clock.InOrder) (now : UInt32) :
    (∀ earlier ∈ clock.returned, earlier ≤ now.toUInt64) ↔ clock.sampled.toNat ≤ now.toNat := by
  have words : clock.sampled.toNat ≤ now.toNat ↔ clock.sampled.toUInt64 ≤ now.toUInt64 := by
    rw [UInt64.le_iff_toNat_le, UInt32.toNat_toUInt64, UInt32.toNat_toUInt64]
  unfold InOrder at ordered
  rw [words, sampled]
  cases returned : clock.returned with
  | nil => simp
  | cons newest rest =>
    rw [returned] at ordered
    have older := (List.pairwise_cons.mp ordered).1
    constructor
    · exact fun bound => bound newest (by simp)
    · intro bound earlier member
      rcases List.mem_cons.mp member with rfl | rest
      · exact bound
      · exact UInt64.le_trans (older earlier rest) bound

/-- Elapsed cycles keep a counter that has reached the last sample at or above it
exactly when they do not wrap, or wrap and come back up. -/
theorem elapse_ahead_iff (ahead : clock.sampled.toNat ≤ clock.cyccnt.toNat) (cycles : ℕ) :
    clock.sampled.toNat ≤ (clock.step (.elapse cycles)).cyccnt.toNat ↔
      clock.StaysAhead (.elapse cycles) := by
  have word := clock.cyccnt.toNat_lt
  have moved : (clock.step (.elapse cycles)).cyccnt.toNat =
      (clock.cyccnt.toNat + cycles % 2 ^ 32) % 2 ^ 32 := by
    simp [step]
  have turn : cycles % 2 ^ 32 < 2 ^ 32 := Nat.mod_lt _ (by decide)
  rw [moved, StaysAhead, untilWrap]
  omega

/-- One step from timestamps in order keeps them so exactly when it stays ahead. -/
theorem step_neverBackwards_iff (sampled : clock.Sampled) (holds : clock.NeverBackwards)
    (event : ClockEvent) : (clock.step event).NeverBackwards ↔ clock.StaysAhead event := by
  obtain ⟨ordered, ahead⟩ := holds
  cases event with
  | etPalCurrentTicks =>
    have called : (clock.step .etPalCurrentTicks).NeverBackwards := by
      refine ⟨List.pairwise_cons.mpr ⟨ahead, ordered⟩, ?_⟩
      intro earlier member
      rcases List.mem_cons.mp member with rfl | old
      · exact UInt64.le_refl _
      · exact ahead earlier old
    simpa [StaysAhead] using called
  | stopMeasurements => simpa [StaysAhead, step] using ⟨ordered, ahead⟩
  | startMeasurements =>
    have reset : (clock.step .startMeasurements).NeverBackwards ↔ clock.sampled.toNat ≤ 0 := by
      have bound := forall_le_iff sampled ordered 0
      exact ⟨fun kept => bound.mp kept.2, fun kept => ⟨ordered, bound.mpr kept⟩⟩
    rw [reset, StaysAhead, Nat.le_zero, ← UInt32.toNat_inj]
    rfl
  | elapse cycles =>
    have bound := forall_le_iff sampled ordered (clock.step (.elapse cycles)).cyccnt
    have moved : (clock.step (.elapse cycles)).NeverBackwards ↔
        clock.sampled.toNat ≤ (clock.step (.elapse cycles)).cyccnt.toNat :=
      ⟨fun kept => bound.mp kept.2, fun kept => ⟨ordered, bound.mpr kept⟩⟩
    rw [moved, elapse_ahead_iff ((forall_le_iff sampled ordered clock.cyccnt).mp ahead)]

private theorem etPalInit_neverBackwards : etPalInit.NeverBackwards := by
  simp [etPalInit, armPmuCyccntReset, NeverBackwards, InOrder]

end Clock

/-- Throughout a run after `et_pal_init` the timestamps are in order, and would be
with one more call at any moment, exactly when every step stays ahead. -/
theorem ticks_in_order_iff (events : List ClockEvent) :
    Always Clock.step Clock.NeverBackwards Clock.etPalInit events ↔
      EachStep Clock.step Clock.StaysAhead Clock.etPalInit events := by
  have admitted : EachStep Clock.step (fun _ _ => True) Clock.etPalInit events :=
    EachStep.of_forall (C := fun _ => True) fun _ _ => trivial
  have sampled : Always Clock.step Clock.Sampled Clock.etPalInit events :=
    admitted.always rfl fun _ event sampled _ => Clock.step_sampled sampled event
  rw [← always_and_iff sampled]
  refine always_iff_eachStep ⟨rfl, Clock.etPalInit_neverBackwards⟩ admitted ?_
  intro clock event ⟨sampled, holds⟩ _
  rw [← Clock.step_neverBackwards_iff sampled holds event]
  exact and_iff_right (Clock.step_sampled sampled event)

/-- Throughout a run whose steps stay ahead, no timestamp is smaller than an earlier one. -/
theorem ticks_stay_in_order {events : List ClockEvent}
    (ahead : EachStep Clock.step Clock.StaysAhead Clock.etPalInit events) :
    Always Clock.step Clock.InOrder Clock.etPalInit events := by
  have holds : Always Clock.step (fun clock => clock.Sampled ∧ clock.NeverBackwards) Clock.etPalInit events := by
    refine ahead.always ⟨rfl, Clock.etPalInit_neverBackwards⟩ ?_
    intro clock event ⟨sampled, ordered⟩ stays
    exact ⟨Clock.step_sampled sampled event, (Clock.step_neverBackwards_iff sampled ordered event).mpr stays⟩
  exact fun past before => (holds past before).2.1

/-- The log line of `run_model` after `StartMeasurements` goes back in time. -/
theorem ticks_go_back :
    ¬ ∀ events : List ClockEvent, (run Clock.step Clock.etPalInit events).InOrder := by
  intro claim
  have ordered := claim [.elapse 1000, .etPalCurrentTicks, .startMeasurements, .elapse 10,
    .etPalCurrentTicks]
  have backwards : ¬(1000 : UInt64) ≤ 10 := by decide
  exact backwards ((List.pairwise_cons.mp ordered).1 1000 (by decide))

end RunnerCm33
