import RunnerCm33.Clock.Ticks

/-! Intervals between two timestamps. The counter never runs ahead of the cycles that
elapse, but a reset and a wrap each lose some of them. -/

namespace RunnerCm33

open RunnerCm33.Runs

/-- `et_tick_ratio_t`. -/
structure EtTickRatio where
  numerator : UInt64
  denominator : UInt64
deriving DecidableEq, Repr

def etPalTicksToNsMultiplier : EtTickRatio := ⟨1, 1⟩

def ticksToNs (ticks : UInt64) : UInt64 :=
  ticks * etPalTicksToNsMultiplier.numerator / etPalTicksToNsMultiplier.denominator

def ClockEvent.cycles : ClockEvent → ℕ
  | .elapse cycles => cycles
  | .etPalCurrentTicks | .startMeasurements | .stopMeasurements => 0

/-- The cycles that have really elapsed. -/
def elapsed (events : List ClockEvent) : ℕ := (events.map ClockEvent.cycles).sum

/-- No cycle is lost: a reset finds the counter at zero, and it does not wrap. -/
def Clock.LosesNothing (clock : Clock) : ClockEvent → Prop
  | .etPalCurrentTicks | .stopMeasurements => True
  | .startMeasurements => clock.cyccnt = 0
  | .elapse cycles => cycles < clock.untilWrap

instance (clock : Clock) (event : ClockEvent) : Decidable (clock.LosesNothing event) :=
  match event with
  | .etPalCurrentTicks | .stopMeasurements => .isTrue trivial
  | .startMeasurements => inferInstanceAs (Decidable (clock.cyccnt = 0))
  | .elapse cycles => Nat.decLt cycles clock.untilWrap

variable {clock : Clock} {event : ClockEvent} {events : List ClockEvent}

private theorem Clock.cyccnt_elapse (cycles : ℕ) :
    (clock.step (.elapse cycles)).cyccnt.toNat = (clock.cyccnt.toNat + cycles) % 2 ^ 32 := by
  simp [step]

private theorem Clock.step_cyccnt_le (clock : Clock) (event : ClockEvent) :
    (clock.step event).cyccnt.toNat ≤ clock.cyccnt.toNat + event.cycles := by
  cases event with
  | etPalCurrentTicks | stopMeasurements => exact Nat.le_refl _
  | startMeasurements => exact Nat.zero_le _
  | elapse cycles =>
    rw [cyccnt_elapse]
    exact Nat.mod_le _ _

private theorem Clock.step_cyccnt_eq_iff (clock : Clock) (event : ClockEvent) :
    (clock.step event).cyccnt.toNat = clock.cyccnt.toNat + event.cycles ↔ clock.LosesNothing event := by
  cases event with
  | etPalCurrentTicks | stopMeasurements => exact iff_of_true rfl trivial
  | startMeasurements =>
    rw [LosesNothing, ← UInt32.toNat_inj]
    exact eq_comm
  | elapse cycles =>
    have word := clock.cyccnt.toNat_lt
    rw [cyccnt_elapse, LosesNothing, untilWrap, ClockEvent.cycles]
    omega

private theorem ticksToNs_eq (ticks : UInt64) : ticksToNs ticks = ticks := by
  simp [ticksToNs, etPalTicksToNsMultiplier]

/-- From any moment of a run to any later one, less than 584 years at a gigahertz apart:
the interval that the two timestamps give is the cycles that have elapsed exactly when no
step between them loses any, to a reset of the running counter or to a wrap. -/
theorem interval_exact_iff (clock : Clock) (events : List ClockEvent)
    (short : elapsed events ≤ 2 ^ 64 - 2 ^ 32) :
    (ticksToNs ((run Clock.step clock events).etPalCurrentTicks - clock.etPalCurrentTicks)).toNat =
      elapsed events ↔ EachStep Clock.step Clock.LosesNothing clock events := by
  have moved : (run Clock.step clock events).cyccnt.toNat ≤ clock.cyccnt.toNat + elapsed events :=
    run_measure_le (fun clock : Clock => clock.cyccnt.toNat) ClockEvent.cycles Clock.step_cyccnt_le
  have exactly : (run Clock.step clock events).cyccnt.toNat = clock.cyccnt.toNat + elapsed events ↔ _ :=
    run_measure_eq_iff (fun clock : Clock => clock.cyccnt.toNat) ClockEvent.cycles Clock.step_cyccnt_le
      Clock.step_cyccnt_eq_iff
  rw [← exactly, ticksToNs_eq, UInt64.toNat_sub, Clock.etPalCurrentTicks, Clock.etPalCurrentTicks,
    Clock.armPmuGetCcntr, Clock.armPmuGetCcntr, UInt32.toNat_toUInt64, UInt32.toNat_toUInt64]
  have first := clock.cyccnt.toNat_lt
  have last := (run Clock.step clock events).cyccnt.toNat_lt
  omega

/-- The measurement of `run_model` starts with a reset, and every timestamp before it is
of no use afterwards. -/
theorem interval_exact_reset :
    (ticksToNs ((run Clock.step ⟨1000, 1000, [1000]⟩ [.startMeasurements, .elapse 5000]).etPalCurrentTicks -
      (Clock.mk 1000 1000 [1000]).etPalCurrentTicks)).toNat = elapsed [.startMeasurements, .elapse 5000] ↔
      EachStep Clock.step Clock.LosesNothing ⟨1000, 1000, [1000]⟩ [.startMeasurements, .elapse 5000] :=
  interval_exact_iff ⟨1000, 1000, [1000]⟩ [.startMeasurements, .elapse 5000] (by decide)

end RunnerCm33
