import RunnerCm33.Runner.Sound
import RunnerCm33.Trace.Startup

/-! How the program ended can be read off the end of its log, as long as the log has
room for what is traced from the last reset on. -/

namespace RunnerCm33

open RunnerCm33.BoundedLog RunnerCm33.Emitting RunnerCm33.Emitting.Emits RunnerCm33.Memory RunnerCm33.Runs

/-- The calls from the last reset on. -/
def sinceReset (ops : List TraceOp) : List TraceCall :=
  ops.foldl (fun calls op => match op with
    | .write call => calls ++ [call]
    | .reset => []) []

/-- What a run of the program leaves in the trace. -/
def tracedBy (memory : ℕ → UInt8) (routine : Routine Value) : Trace :=
  run traceStep (startTrace memory) routine.emitted

/-- The bytes that a routine wants in the trace from the last reset on. -/
def wanted (routine : Routine Value) : List UInt8 := (recordsOf (sinceReset routine.emitted)).flatten

/-- How the program ended, by the end of what Linux reads. -/
def readOutcome (text : List UInt8) : Except Ending Unit :=
  if [0x04, 0x0A] <:+ text then .ok ()
  else if ascii "*\n" <:+ text then .error .aborts
  else .error .waits

variable {ops : List TraceOp} {call : TraceCall} {calls : List TraceCall} {log : List (List UInt8)}
  {memory : ℕ → UInt8} {Value : Type} {routine : Routine Value} {firmware : Firmware} {library : Library}

@[simp] theorem sinceReset_write : sinceReset (ops ++ [.write call]) = sinceReset ops ++ [call] := by
  simp [sinceReset]

@[simp] theorem sinceReset_reset : sinceReset (ops ++ [.reset]) = [] := by
  simp [sinceReset]

@[simp] theorem recordsOf_append {more : List TraceCall} :
    recordsOf (calls ++ more) = recordsOf calls ++ recordsOf more :=
  List.flatMap_append ..

/-- For the log, the calls from the last reset on are what is offered since it was cleared. -/
theorem offered_events (ops : List TraceOp) :
    offered (ops.flatMap TraceOp.events) = recordsOf (sinceReset ops) := by
  induction ops using List.reverseRecOn with
  | nil => rfl
  | append_singleton ops op ih =>
    rw [List.flatMap_append, List.flatMap_singleton]
    cases op with
    | reset => rw [TraceOp.events, offered_clear, sinceReset_reset, recordsOf, List.flatMap_nil]
    | write call =>
      have records : recordsOf [call] = call.records := by simp [recordsOf]
      rw [TraceOp.events, offered_append_offers, ih, sinceReset_write, recordsOf_append, records]

/-- Where all records from the last reset on fit together, all of them are kept. -/
theorem keptRecords_of_fits (fits : (recordsOf (sinceReset ops)).flatten.length < rscTraceBufSize.toNat) :
    keptRecords ops = recordsOf (sinceReset ops) := by
  rw [← offered_events] at fits ⊢
  exact kept_of_fits fits

/-- A property of all operations is one of the calls since the last reset. -/
theorem forall_sinceReset {C : TraceOp → Prop} (each : ∀ op ∈ ops, C op) :
    ∀ call ∈ sinceReset ops, C (.write call) := by
  induction ops using List.reverseRecOn with
  | nil => simp [sinceReset]
  | append_singleton ops op ih =>
    have earlier := ih fun op member => each op (List.mem_append_left _ member)
    cases op with
    | reset => simp
    | write last =>
      intro call member
      rcases List.mem_append.mp (sinceReset_write ▸ member) with old | new
      · exact earlier call old
      · obtain rfl := List.mem_singleton.mp new
        exact each _ (by simp)

theorem records_clean (noNul : 0 ∉ call.text) : ∀ record ∈ call.records, 0 ∉ record := by
  intro record offered inside
  unfold TraceCall.records at offered
  split at offered
  · rw [List.mem_singleton.mp offered] at inside
    exact noNul (List.mem_of_mem_take inside)
  · simp at offered

theorem recordsOf_clean (clean : ∀ op ∈ ops, op = .reset ∨ op.Clean) :
    ∀ record ∈ recordsOf (sinceReset ops), 0 ∉ record := by
  intro record member
  obtain ⟨call, present, offered⟩ := List.mem_flatMap.mp member
  have noNul : 0 ∉ call.text := (forall_sinceReset clean call present).resolve_left nofun
  exact records_clean noNul record offered

theorem trace0_tracedBy (memory : ℕ → UInt8) (clean : routine.Only fun op => op = .reset ∨ op.Clean)
    (fits : (wanted routine).length < rscTraceBufSize.toNat) :
    trace0 (tracedBy memory routine) = wanted routine := by
  have kept := keptRecords_of_fits fits
  have holds : (tracedBy memory routine).Holds (keptRecords routine.emitted) :=
    run_holds startTrace_holds routine.emitted
  rw [holds.trace0_eq, kept, takeWhile_flatten_eq_iff.mpr (recordsOf_clean clean), wanted]

private theorem wanted_of_last {before : List TraceOp} (last : routine.emitted = before ++ [.write call])
    (positive : 0 < call.text.length) (short : call.text.length ≤ 255) :
    wanted routine = (recordsOf (sinceReset before)).flatten ++ call.text := by
  have record : recordsOf [call] = [call.text] := by
    have formats : Formats call.text := ⟨positive, by omega⟩
    simp [recordsOf, TraceCall.records, formats, List.take_of_length_le short]
  rw [wanted, last, sinceReset_write, recordsOf_append, record, List.flatten_append, List.flatten_singleton]

private theorem suffix_append_iff {mark front text : List UInt8} (long : mark.length ≤ text.length) :
    mark <:+ front ++ text ↔ mark <:+ text := by
  constructor
  · intro ends
    exact List.suffix_of_suffix_length_le ends (List.suffix_append ..) long
  · intro ends
    exact ends.trans (List.suffix_append ..)

private theorem readOutcome_append {front text : List UInt8} (long : 2 ≤ text.length) :
    readOutcome (front ++ text) = readOutcome text := by
  have marker : [0x04, 0x0A] <:+ front ++ text ↔ [0x04, 0x0A] <:+ text := suffix_append_iff long
  have stars : ascii "*\n" <:+ front ++ text ↔ ascii "*\n" <:+ text := suffix_append_iff long
  simp only [readOutcome, marker, stars]

/-- The line that ends the log of a complete run. -/
def endMarker : TraceCall := .etPalEmitLogMessage .info (ascii "arm_executor_runner.cpp") 1502 [0x04]

private theorem endMarker_traced : (etLog .info 1502 [0x04]).ReturnsWith (.write endMarker) :=
  fun _ _ => ⟨[], rfl⟩

private theorem mainRoutine_returns : (mainRoutine firmware library).ReturnsWith (.write endMarker) :=
  .bind fun _ => .bind fun _ => .bind fun _ => .bind fun _ => .bind fun _ =>
  .bind fun _ => .bind fun _ => .bind fun _ => .bind fun _ => .bind fun _ => endMarker_traced

private theorem readOutcome_endMarker : readOutcome endMarker.text = .ok () := by decide

private theorem readOutcome_etPalAbort : readOutcome TraceCall.etPalAbort.text = .error .aborts := by decide

private theorem readOutcome_waits (error : Error) : readOutcome (TraceCall.etPalEmitLogMessage .info
    (ascii "arm_executor_runner.cpp") 803 (programLoadingFailed error)).text = .error .waits := by
  have parts : (TraceCall.etPalEmitLogMessage .info (ascii "arm_executor_runner.cpp") 803
      (programLoadingFailed error)).text = [0x49] ++ ascii " [" ++ ascii "arm_executor_runner.cpp" ++
        ascii ":" ++ decimal 803 ++ ascii "] " ++ (ascii "Program loading failed @ 0x" ++ pointer modelPte ++
        ascii ": 0x") ++ (unsignedHex error.code ++ ascii "\n") := by
    simp [TraceCall.text, LogLevel.char, programLoadingFailed]
  rw [parts, readOutcome_append (by cases error <;> decide)]
  cases error <;> decide

/-- Every end of a run is told by a text of at least two bytes that fits a record. -/
theorem mainRoutine_last (firmware : Firmware) (clean : library.Clean) : ∃ before call,
    (mainRoutine firmware library).emitted = before ++ [.write call] ∧ 2 ≤ call.text.length ∧
      call.text.length ≤ 255 ∧ readOutcome call.text = (mainRoutine firmware library).result := by
  cases result : (mainRoutine firmware library).result with
  | ok value =>
    obtain ⟨before, last⟩ := mainRoutine_returns value result
    exact ⟨before, endMarker, last, by decide, by decide, readOutcome_endMarker⟩
  | error ending =>
    obtain ⟨before, last, emitted, tells⟩ := Sound.mainRoutine_tells clean ending result
    cases ending with
    | aborts =>
      obtain rfl := tells
      exact ⟨before, .etPalAbort, emitted, by decide, by decide, readOutcome_etPalAbort⟩
    | waits =>
      obtain ⟨error, rfl⟩ := tells
      refine ⟨before, _, emitted, ?_, ?_, readOutcome_waits error⟩ <;> cases error <;> decide

theorem readOutcome_wanted (firmware : Firmware) (clean : library.Clean) :
    readOutcome (wanted (mainRoutine firmware library)) = (mainRoutine firmware library).result := by
  obtain ⟨before, call, last, long, short, tells⟩ := mainRoutine_last firmware clean
  rw [wanted_of_last last (by omega) short, readOutcome_append long, tells]

def refusingLibrary : Library where
  ethosuInit := ⟨[], 0⟩
  runtimeInit := []
  load := ⟨[], .error .invalidProgram⟩
  loadMethod := ⟨⟨[], .error .invalidState⟩, []⟩
  inputQueries := []
  execute := fun _ => ⟨⟨[], .invalidState⟩, []⟩
  getOutputs := ⟨[], .invalidState⟩
  outputs := []

end RunnerCm33
