import RunnerCm33.Lib.InterruptedEdits
import RunnerCm33.Patches.Edits

/-! `apply_patches.sh` interrupted: the file commands of a run one by one, and what each of
them may leave when it is cut off. -/

namespace RunnerCm33

open RunnerCm33.GuardedEdits

inductive FileCommand where
  | cp (source target : Path)
  | sed (program : List Char → List Char) (path : Path)
  | rm (path : Path)

namespace FileCommand

/-- The files after the command, if it does not fail. -/
def run (files : SdkFiles) : FileCommand → Option SdkFiles
  | .cp source target => (files source).map fun text => Function.update files target (some text)
  | .sed program path => (files path).map fun text =>
      Function.update (Function.update files (.tmp path) (some text)) path (some (program text))
  | .rm path => some (Function.update files path none)

/-- Files in the middle of a command: `cp` writes its target from the front, and `sed -i`
renames its input to the backup before it renames its finished output. -/
inductive Cut (files : SdkFiles) : FileCommand → SdkFiles → Prop where
  | cp {source target : Path} {text : List Char} (present : files source = some text) (written : ℕ) :
      Cut files (.cp source target) (Function.update files target (some (text.take written)))
  | sed {program : List Char → List Char} {path : Path} {text : List Char}
      (present : files path = some text) :
      Cut files (.sed program path)
        (Function.update (Function.update files (.tmp path) (some text)) path none)

/-- Commands one after the other, up to the first that fails. -/
def runAll (files : SdkFiles) : List FileCommand → SdkFiles
  | [] => files
  | command :: rest =>
    match command.run files with
    | none => files
    | some next => runAll next rest

/-- The states that some commands pass through. -/
inductive Passes : SdkFiles → List FileCommand → SdkFiles → Prop where
  | here {files : SdkFiles} {commands : List FileCommand} : Passes files commands files
  | cut {files state : SdkFiles} {command : FileCommand} {rest : List FileCommand}
      (torn : command.Cut files state) : Passes files (command :: rest) state
  | later {files next state : SdkFiles} {command : FileCommand} {rest : List FileCommand}
      (ran : command.run files = some next) (passes : Passes next rest state) :
      Passes files (command :: rest) state

end FileCommand

open FileCommand

/-- The file commands of patch 1. -/
def linkerScriptCommands (env : Environment) (files : SdkFiles) : List FileCommand :=
  match files .linkerScript with
  | none => []
  | some text =>
    if grep (gotPattern env) text then []
    else [.cp .linkerScript (.bak .linkerScript), .sed insertGot .linkerScript, .rm (.tmp .linkerScript)]

def ethosuLogCommands (files : SdkFiles) : List FileCommand :=
  match files .ethosuLog with
  | none => []
  | some text =>
    if grep traceLogPattern text then []
    else [.cp .ethosuLog (.bak .ethosuLog), .cp .scriptDirEthosuLog .ethosuLog]

/-- What a run may leave that is stopped at any moment, or stops by itself. -/
def Interrupted (env : Environment) (files state : SdkFiles) : Prop :=
  state = files ∨
    (env.sdkRootDirPath ≠ "" ∧ env.sdkIsDirectory) ∧
      (Passes files (linkerScriptCommands env files) state ∨
        (files .linkerScript).isSome ∧
          Passes (runAll files (linkerScriptCommands env files))
            (ethosuLogCommands (runAll files (linkerScriptCommands env files))) state)

variable {env : Environment} {comment : LeadingComment} {files state next : SdkFiles} {shell : Shell}
  {commands : List FileCommand} {text : List Char}

private theorem passes_runAll (files : SdkFiles) (commands : List FileCommand) :
    Passes files commands (runAll files commands) := by
  induction commands generalizing files with
  | nil => exact .here
  | cons command rest ih =>
    rw [runAll]
    cases ran : command.run files with
    | none => exact .here
    | some next => exact .later ran (ih next)

private theorem patchLinkerScript_files (env : Environment) (shell : Shell) :
    (patchLinkerScript env shell).files = runAll shell.files (linkerScriptCommands env shell.files) := by
  cases present : shell.files .linkerScript with
  | none => simp [patchLinkerScript, linkerScriptCommands, Shell.echo, Shell.exit, present, runAll, Ran.files]
  | some text =>
    by_cases applied : grep (gotPattern env) text
    · simp [patchLinkerScript, linkerScriptCommands, Shell.echo, present, applied, runAll, Ran.files]
    · simp [patchLinkerScript, linkerScriptCommands, Shell.echo, Shell.cp, Shell.sed, Shell.rm, present,
        applied, runAll, Ran.files, FileCommand.run, bind, Except.bind, pure, Except.pure]

private theorem patchEthosuLog_files (env : Environment) (shell : Shell) :
    (patchEthosuLog env shell).files = runAll shell.files (ethosuLogCommands shell.files) := by
  cases present : shell.files .ethosuLog with
  | none => simp [patchEthosuLog, ethosuLogCommands, Shell.echo, Shell.exit, present, runAll, Ran.files]
  | some text =>
    by_cases applied : grep traceLogPattern text
    · simp [patchEthosuLog, ethosuLogCommands, Shell.echo, present, applied, runAll, Ran.files]
    · cases copied : shell.files .scriptDirEthosuLog with
      | none =>
        simp [patchEthosuLog, ethosuLogCommands, Shell.echo, Shell.cp, present, applied, copied, runAll,
          Ran.files, FileCommand.run, bind, Except.bind]
      | some patched =>
        simp [patchEthosuLog, ethosuLogCommands, Shell.echo, Shell.cp, present, applied, copied, runAll,
          Ran.files, FileCommand.run, bind, Except.bind, pure, Except.pure]

private theorem isSome_of_patchLinkerScript {after : Shell}
    (success : patchLinkerScript env shell = .ok after) :
    (shell.files .linkerScript).isSome := by
  cases present : shell.files .linkerScript with
  | none => simp [patchLinkerScript, Shell.echo, Shell.exit, present] at success
  | some text => rfl

/-- A run that nothing interrupts, whatever its status, ends in a state that an
interruption may leave. -/
theorem interrupted_of_run (env : Environment) (files : SdkFiles) :
    Interrupted env files (applyPatches env files).files := by
  unfold applyPatches
  split
  · exact .inl rfl
  · rename_i set
    split
    · exact .inl rfl
    · rename_i directory
      refine .inr ⟨⟨set, by simpa using directory⟩, ?_⟩
      have first := patchLinkerScript_files env
        (((Shell.mk files []).echo "=== ExecuTorch Runner SDK Patches ===").echo "")
      cases linker : patchLinkerScript env
          (((Shell.mk files []).echo "=== ExecuTorch Runner SDK Patches ===").echo "") with
      | error exited =>
        rw [linker] at first
        have ended : exited.shell.files = runAll files (linkerScriptCommands env files) := first
        simp only [linker, bind, Except.bind, Ran.files, ended]
        exact .inl (passes_runAll _ _)
      | ok middle =>
        rw [linker] at first
        have ended : middle.files = runAll files (linkerScriptCommands env files) := first
        have second := patchEthosuLog_files env (middle.echo "")
        have same : (middle.echo "").files = runAll files (linkerScriptCommands env files) := ended
        rw [same] at second
        refine .inr ⟨isSome_of_patchLinkerScript linker, ?_⟩
        have passes : Passes (runAll files (linkerScriptCommands env files))
            (ethosuLogCommands (runAll files (linkerScriptCommands env files)))
            (patchEthosuLog env (middle.echo "")).files := second ▸ passes_runAll _ _
        cases header : patchEthosuLog env (middle.echo "") with
        | error exited =>
          rw [header] at passes
          simpa only [linker, header, bind, Except.bind, Ran.files] using passes
        | ok last =>
          rw [header] at passes
          simp only [linker, header, bind, Except.bind]
          exact passes

/-! ### What the commands leave -/

theorem passes_nil : Passes files [] state ↔ state = files := by
  constructor
  · intro passes
    cases passes
    rfl
  · rintro rfl
    exact .here

private theorem cp_passes {source target : Path} (present : files source = some text) :
    Passes files (.cp source target :: commands) state ↔ state = files ∨
      (∃ written, state = Function.update files target (some (text.take written))) ∨
      Passes (Function.update files target (some text)) commands state := by
  have ran : (FileCommand.cp source target).run files = some (Function.update files target (some text)) := by
    simp [FileCommand.run, present]
  constructor
  · intro passes
    cases passes with
    | here => exact .inl rfl
    | cut torn =>
      cases torn with
      | cp held written =>
        obtain rfl := Option.some.inj (present.symm.trans held)
        exact .inr (.inl ⟨written, rfl⟩)
    | later other passes =>
      obtain rfl := Option.some.inj (ran.symm.trans other)
      exact .inr (.inr passes)
  · rintro (rfl | ⟨written, rfl⟩ | passes)
    · exact .here
    · exact .cut (.cp present written)
    · exact .later ran passes

private theorem sed_passes {program : List Char → List Char} {path : Path}
    (present : files path = some text) :
    Passes files (.sed program path :: commands) state ↔ state = files ∨
      state = Function.update (Function.update files (.tmp path) (some text)) path none ∨
      Passes (Function.update (Function.update files (.tmp path) (some text)) path (some (program text)))
        commands state := by
  have ran : (FileCommand.sed program path).run files =
      some (Function.update (Function.update files (.tmp path) (some text)) path (some (program text))) := by
    simp [FileCommand.run, present]
  constructor
  · intro passes
    cases passes with
    | here => exact .inl rfl
    | cut torn =>
      cases torn with
      | sed held =>
        obtain rfl := Option.some.inj (present.symm.trans held)
        exact .inr (.inl rfl)
    | later other passes =>
      obtain rfl := Option.some.inj (ran.symm.trans other)
      exact .inr (.inr passes)
  · rintro (rfl | rfl | passes)
    · exact .here
    · exact .cut (.sed present)
    · exact .later ran passes

private theorem rm_passes {path : Path} : Passes files (.rm path :: commands) state ↔ state = files ∨
    Passes (Function.update files path none) commands state := by
  constructor
  · intro passes
    cases passes with
    | here => exact .inl rfl
    | cut torn => cases torn
    | later ran passes =>
      cases ran
      exact .inr passes
  · rintro (rfl | passes)
    · exact .here
    · exact .later rfl passes

private theorem untouched_of_frame {file : Path} (frame : ∀ path : Path, path ≠ file → path ≠ .bak file →
    path ≠ .tmp file → state path = files path) : ∀ path : Path, ¬path.IsOf file → state path = files path := by
  intro path apart
  simp only [Path.IsOf, not_or] at apart
  exact frame path apart.1 apart.2.1 apart.2.2

/-- Patch 1 leaves the linker script where an interrupted edit may leave it, or moved to
the file that `sed` makes, and no other file touched. -/
theorem linkerScript_passes {kept : Kept (List Char)} (found : keptAt files .linkerScript = some kept)
    (passes : Passes files (linkerScriptCommands env files) state) :
    ((∃ next, keptAt state .linkerScript = some next ∧ (gotFix env).Reaches kept next) ∨
        state .linkerScript = none ∧ state (.tmp .linkerScript) = some kept.current ∧
          ¬grep (gotPattern env) kept.current) ∧
      ∀ path : Path, ¬path.IsOf .linkerScript → state path = files path := by
  obtain ⟨present, backup⟩ := keptAt_some found
  by_cases applied : grep (gotPattern env) kept.current
  · have none : linkerScriptCommands env files = [] := by simp [linkerScriptCommands, present, applied]
    rw [none, passes_nil] at passes
    obtain rfl := passes
    exact ⟨.inl ⟨kept, found, .before⟩, fun _ _ => rfl⟩
  · have missed : ¬(gotFix env).applied kept.current := applied
    have commands : linkerScriptCommands env files = [.cp .linkerScript (.bak .linkerScript),
        .sed insertGot .linkerScript, .rm (.tmp .linkerScript)] := by
      simp [linkerScriptCommands, present, applied]
    have saved : Function.update files (.bak .linkerScript) (some kept.current) .linkerScript =
        some kept.current := by simpa using present
    rw [commands, cp_passes present, sed_passes saved, rm_passes, passes_nil] at passes
    have edited := Edit.Reaches.edited missed
    have backedUp (part : List Char) := Edit.Reaches.backup missed part
    rcases passes with rfl | ⟨written, rfl⟩ | rfl | rfl | rfl | rfl
    · exact ⟨.inl ⟨kept, found, .before⟩, fun _ _ => rfl⟩
    · refine ⟨.inl ⟨_, ?_, backedUp (kept.current.take written)⟩, untouched_of_frame ?_⟩
      · simp [keptAt, present]
      · simp +contextual
    · refine ⟨.inl ⟨_, ?_, backedUp kept.current⟩, untouched_of_frame ?_⟩
      · simp [keptAt, present]
      · simp +contextual
    · refine ⟨.inr ⟨?_, ?_, applied⟩, untouched_of_frame ?_⟩
      · simp
      · simp
      · simp +contextual
    · refine ⟨.inl ⟨_, ?_, edited⟩, untouched_of_frame ?_⟩
      · simp [keptAt]
        rfl
      · simp +contextual
    · refine ⟨.inl ⟨_, ?_, edited⟩, untouched_of_frame ?_⟩
      · simp [keptAt]
        rfl
      · simp +contextual

/-- Patch 2 leaves the header where an interrupted edit may leave it, or torn, with its
backup complete, and no other file touched. -/
theorem ethosuLog_passes {kept : Kept (List Char)} (found : keptAt files .ethosuLog = some kept)
    (copied : files .scriptDirEthosuLog = some comment.ethosuLog)
    (passes : Passes files (ethosuLogCommands files) state) :
    ((∃ next, keptAt state .ethosuLog = some next ∧ (logFix comment).Reaches kept next) ∨
        ¬grep traceLogPattern kept.current ∧ ∃ written, keptAt state .ethosuLog =
          some ⟨comment.ethosuLog.take written, some kept.current⟩) ∧
      ∀ path : Path, ¬path.IsOf .ethosuLog → state path = files path := by
  obtain ⟨present, backup⟩ := keptAt_some found
  by_cases applied : grep traceLogPattern kept.current
  · have none : ethosuLogCommands files = [] := by simp [ethosuLogCommands, present, applied]
    rw [none, passes_nil] at passes
    obtain rfl := passes
    exact ⟨.inl ⟨kept, found, .before⟩, fun _ _ => rfl⟩
  · have missed : ¬(logFix comment).applied kept.current := applied
    have commands : ethosuLogCommands files = [.cp .ethosuLog (.bak .ethosuLog),
        .cp .scriptDirEthosuLog .ethosuLog] := by
      simp [ethosuLogCommands, present, applied]
    have source : Function.update files (.bak .ethosuLog) (some kept.current) .scriptDirEthosuLog =
        some comment.ethosuLog := by simpa using copied
    rw [commands, cp_passes present, cp_passes source, passes_nil] at passes
    have edited := Edit.Reaches.edited missed
    have backedUp (part : List Char) := Edit.Reaches.backup missed part
    rcases passes with rfl | ⟨written, rfl⟩ | rfl | ⟨written, rfl⟩ | rfl
    · exact ⟨.inl ⟨kept, found, .before⟩, fun _ _ => rfl⟩
    · refine ⟨.inl ⟨_, ?_, backedUp (kept.current.take written)⟩, untouched_of_frame ?_⟩
      · simp [keptAt, present]
      · simp +contextual
    · refine ⟨.inl ⟨_, ?_, backedUp kept.current⟩, untouched_of_frame ?_⟩
      · simp [keptAt, present]
      · simp +contextual
    · refine ⟨.inr ⟨applied, written, ?_⟩, untouched_of_frame ?_⟩
      · simp [keptAt]
      · simp +contextual
    · refine ⟨.inl ⟨_, ?_, edited⟩, untouched_of_frame ?_⟩
      · simp [keptAt]
        rfl
      · simp +contextual

private theorem LeadingComment.ethosuLog_ne_nil (comment : LeadingComment) : comment.ethosuLog ≠ [] := by
  rw [ethosuLog]
  exact List.cons_ne_nil _ _

/-! ### Runs after interruptions -/

/-- Runs one after the other, each of them interrupted or not, but none of them while it
writes the header. -/
inductive InterruptedRuns (env : Environment) (files : SdkFiles) : SdkFiles → Prop where
  | none : InterruptedRuns env files files
  | more {middle state : SdkFiles} (runs : InterruptedRuns env files middle)
      (interrupted : Interrupted env middle state)
      (whole : state .ethosuLog = middle .ethosuLog ∨ state .ethosuLog = middle .scriptDirEthosuLog) :
      InterruptedRuns env files state

/-- From these files a run with status 0 reaches what one run makes of the originals. -/
structure Recoverable (env : Environment) (comment : LeadingComment) (linkerScript ethosuLog : List Char)
    (files : SdkFiles) : Prop where
  linkerScript : (∃ kept, keptAt files .linkerScript = some kept ∧
      (gotFix env).Recoverable linkerScript kept) ∨
    files .linkerScript = none ∧ files (.tmp .linkerScript) = some linkerScript
  ethosuLog : ∃ kept, keptAt files .ethosuLog = some kept ∧ (logFix comment).Recoverable ethosuLog kept
  copied : files .scriptDirEthosuLog = some comment.ethosuLog

variable {linkerScript ethosuLog : List Char}

/-- The linker script and the header's source after patch 1, cut off or not. -/
theorem Recoverable.linkerScript_passes
    (recoverable : Recoverable env comment linkerScript ethosuLog files)
    (passes : Passes files (linkerScriptCommands env files) state) :
    Recoverable env comment linkerScript ethosuLog state ∧ state .ethosuLog = files .ethosuLog := by
  have headerKept (others : ∀ path : Path, ¬path.IsOf .linkerScript → state path = files path) :
      keptAt state .ethosuLog = keptAt files .ethosuLog ∧
        state .scriptDirEthosuLog = files .scriptDirEthosuLog ∧ state .ethosuLog = files .ethosuLog :=
    ⟨keptAt_congr (others _ (by simp [Path.IsOf])) (others _ (by simp [Path.IsOf])),
      others _ (by simp [Path.IsOf]), others _ (by simp [Path.IsOf])⟩
  rcases recoverable.linkerScript with ⟨kept, found, before⟩ | ⟨missing, moved⟩
  · obtain ⟨left, others⟩ := RunnerCm33.linkerScript_passes found passes
    obtain ⟨header, source, same⟩ := headerKept others
    refine ⟨⟨?_, by rw [header]; exact recoverable.ethosuLog, by rw [source]; exact recoverable.copied⟩, same⟩
    rcases left with ⟨next, stands, reaches⟩ | ⟨missing, moved, missed⟩
    · exact .inl ⟨next, stands, before.reaches reaches⟩
    · exact .inr ⟨missing, by rw [moved, before.current_of_missed missed]⟩
  · have none : linkerScriptCommands env files = [] := by simp [linkerScriptCommands, missing]
    rw [none, passes_nil] at passes
    obtain rfl := passes
    exact ⟨recoverable, rfl⟩

private theorem Recoverable.interrupted (recoverable : Recoverable env comment linkerScript ethosuLog files)
    (interrupted : Interrupted env files state)
    (whole : state .ethosuLog = files .ethosuLog ∨ state .ethosuLog = files .scriptDirEthosuLog) :
    Recoverable env comment linkerScript ethosuLog state := by
  rcases interrupted with rfl | ⟨-, first | ⟨-, second⟩⟩
  · exact recoverable
  · exact (recoverable.linkerScript_passes first).1
  · obtain ⟨middle, same⟩ := recoverable.linkerScript_passes (passes_runAll files (linkerScriptCommands env files))
    obtain ⟨kept, found, before⟩ := middle.ethosuLog
    obtain ⟨left, others⟩ := ethosuLog_passes found middle.copied second
    have source : state .scriptDirEthosuLog = some comment.ethosuLog :=
      (others _ (by simp [Path.IsOf])).trans middle.copied
    have script : keptAt state .linkerScript =
        keptAt (runAll files (linkerScriptCommands env files)) .linkerScript :=
      keptAt_congr (others _ (by simp [Path.IsOf])) (others _ (by simp [Path.IsOf]))
    refine ⟨?_, ?_, source⟩
    · rcases middle.linkerScript with ⟨kept, stands, before⟩ | ⟨missing, moved⟩
      · exact .inl ⟨kept, script.trans stands, before⟩
      · refine .inr ⟨(others _ (by simp [Path.IsOf])).trans missing, ?_⟩
        exact (others _ (by simp [Path.IsOf])).trans moved
    · rcases left with ⟨next, stands, reaches⟩ | ⟨missed, written, torn⟩
      · exact ⟨next, stands, before.reaches reaches⟩
      · have current : state .ethosuLog = some (comment.ethosuLog.take written) := (keptAt_some torn).1
        refine ⟨_, torn, ?_⟩
        rcases whole with unwritten | written
        · rw [current, ← same, (keptAt_some found).1] at unwritten
          rw [Option.some.inj unwritten]
          exact before.reaches (.backup missed kept.current)
        · rw [current, recoverable.copied] at written
          rw [Option.some.inj written]
          exact before.reaches (.edited missed)

theorem InterruptedRuns.recoverable (runs : InterruptedRuns env files state)
    (pristine : Recoverable env comment linkerScript ethosuLog files) :
    Recoverable env comment linkerScript ethosuLog state := by
  induction runs with
  | none => exact pristine
  | more _ interrupted whole ih => exact ih.interrupted interrupted whole

private theorem isSome_of_applyPatches (success : (applyPatches env files).status = 0) :
    (files .linkerScript).isSome := by
  obtain ⟨start, first, -, -, rfl, ran, -⟩ := applyPatches_ok success
  exact isSome_of_patchLinkerScript ran

/-- The first run that is not interrupted makes both edits of the originals. -/
theorem Recoverable.patched (recoverable : Recoverable env comment linkerScript ethosuLog files)
    (success : (applyPatches env files).status = 0) :
    ∃ script header, keptAt (applyPatches env files).files .linkerScript = some script ∧
      (gotFix env).MadeOf linkerScript script ∧
      keptAt (applyPatches env files).files .ethosuLog = some header ∧
      (logFix comment).MadeOf ethosuLog header := by
  have both := applyPatches_patched recoverable.copied success
  obtain ⟨header, foundHeader, beforeHeader⟩ := recoverable.ethosuLog
  rcases recoverable.linkerScript with ⟨script, foundScript, beforeScript⟩ | ⟨missing, -⟩
  · refine ⟨_, _, ?_, beforeScript.make, ?_, beforeHeader.make⟩
    · rw [both.linkerScript, foundScript, Option.map_some]
    · rw [both.ethosuLog, foundHeader, Option.map_some]
  · have present := isSome_of_applyPatches success
    simp [missing] at present

/-- The SDK files are those of another run, and every backup is the original. -/
structure PatchedAs (once : SdkFiles) (linkerScript ethosuLog : List Char) (last : SdkFiles) : Prop where
  script : last .linkerScript = once .linkerScript
  header : last .ethosuLog = once .ethosuLog
  scriptBackup : ∀ text ∈ last (.bak .linkerScript), text = linkerScript
  headerBackup : ∀ text ∈ last (.bak .ethosuLog), text = ethosuLog

/-- Both SDK files, with the header of the repository beside the script, before any run. -/
structure Pristine (comment : LeadingComment) (linkerScript ethosuLog : List Char) (files : SdkFiles) :
    Prop where
  linkerScript : keptAt files .linkerScript = some ⟨linkerScript, none⟩
  ethosuLog : keptAt files .ethosuLog = some ⟨ethosuLog, none⟩
  copied : files .scriptDirEthosuLog = some comment.ethosuLog

theorem Pristine.recoverable (pristine : Pristine comment linkerScript ethosuLog files) :
    Recoverable env comment linkerScript ethosuLog files where
  linkerScript := .inl ⟨_, pristine.linkerScript, Edit.recoverable_pristine⟩
  ethosuLog := ⟨_, pristine.ethosuLog, Edit.recoverable_pristine⟩
  copied := pristine.copied

theorem Pristine.succeeds (pristine : Pristine comment linkerScript ethosuLog files)
    (success : (applyPatches env state).status = 0) : (applyPatches env files).status = 0 := by
  have script := (keptAt_some pristine.linkerScript).1
  have header := (keptAt_some pristine.ethosuLog).1
  refine Ready.succeeds ⟨?_, ?_, by simp [script], by simp [header], by simp [pristine.copied]⟩
  · intro unset
    simp [applyPatches, unset, Shell.exit, Ran.status] at success
  · by_contra noDirectory
    have set : env.sdkRootDirPath ≠ "" := by
      intro unset
      simp [applyPatches, unset, Shell.exit, Ran.status] at success
    have absent : env.sdkIsDirectory = false := by simpa using noDirectory
    simp [applyPatches, set, absent, Shell.exit, Ran.status] at success

/-- From recoverable files a run with status 0 reaches what it reaches from the originals. -/
theorem Recoverable.patchedAs (recoverable : Recoverable env comment linkerScript ethosuLog state)
    (pristine : Pristine comment linkerScript ethosuLog files)
    (success : (applyPatches env state).status = 0) :
    PatchedAs (applyPatches env files).files linkerScript ethosuLog (applyPatches env state).files := by
  obtain ⟨script, header, foundScript, madeScript, foundHeader, madeHeader⟩ := recoverable.patched success
  have once := applyPatches_patched pristine.copied (pristine.succeeds success)
  have texts := once.texts (keptAt_some pristine.linkerScript).1 (keptAt_some pristine.ethosuLog).1
  constructor
  · rw [(keptAt_some foundScript).1, madeScript.current, texts.1]
  · rw [(keptAt_some foundHeader).1, madeHeader.current, texts.2]
  · rw [(keptAt_some foundScript).2]
    exact madeScript.backup
  · rw [(keptAt_some foundHeader).2]
    exact madeHeader.backup

/-- After any number of interrupted runs, none of them interrupted while it wrote the
header: a run with status 0 leaves the SDK files as the first run would have, with the
originals as backups; and where the linker script is missing, its text stands beside it. -/
theorem applyPatches_recovers (env : Environment) (comment : LeadingComment) (files : SdkFiles)
    (linkerScript ethosuLog : List Char) (pristine : Pristine comment linkerScript ethosuLog files)
    (middle : SdkFiles) (runs : InterruptedRuns env files middle) :
    ((applyPatches env middle).status = 0 →
        PatchedAs (applyPatches env files).files linkerScript ethosuLog (applyPatches env middle).files) ∧
      (middle .linkerScript = none → middle (.tmp .linkerScript) = some linkerScript) := by
  have recoverable := runs.recoverable pristine.recoverable
  constructor
  · exact recoverable.patchedAs pristine
  · intro missing
    rcases recoverable.linkerScript with ⟨kept, found, -⟩ | ⟨-, moved⟩
    · simp [(keptAt_some found).1] at missing
    · exact moved

/-- An SDK as it comes, and as it is after an interrupted backup of its linker script. -/
theorem applyPatches_recovers_backup :
    PatchedAs (applyPatches posixEnvironment (sdkFiles "  KEEP(*(.jcr*))\n".toList [])).files
      "  KEEP(*(.jcr*))\n".toList []
      (applyPatches posixEnvironment (Function.update (sdkFiles "  KEEP(*(.jcr*))\n".toList [])
        (.bak .linkerScript) (some ("  KEEP(*(.jcr*))\n".toList.take 6)))).files := by
  have missed : ¬grep (gotPattern posixEnvironment) "  KEEP(*(.jcr*))\n".toList := by
    rw [String.toList_ofList]
    decide +kernel
  have decided : linkerScriptCommands posixEnvironment (sdkFiles "  KEEP(*(.jcr*))\n".toList []) =
      if grep (gotPattern posixEnvironment) "  KEEP(*(.jcr*))\n".toList then []
      else [.cp .linkerScript (.bak .linkerScript), .sed insertGot .linkerScript,
        .rm (.tmp .linkerScript)] := rfl
  have interrupted : Interrupted posixEnvironment (sdkFiles "  KEEP(*(.jcr*))\n".toList [])
      (Function.update (sdkFiles "  KEEP(*(.jcr*))\n".toList []) (.bak .linkerScript)
        (some ("  KEEP(*(.jcr*))\n".toList.take 6))) := by
    refine .inr ⟨⟨by decide, rfl⟩, .inl ?_⟩
    rw [decided, if_neg missed]
    exact .cut (.cp rfl 6)
  refine (applyPatches_recovers posixEnvironment (LeadingComment.mk [] (by simp) (by simp)) _ _ _
    ⟨rfl, rfl, rfl⟩ _ (.more .none interrupted (.inl rfl))).1 ?_
  exact Ready.succeeds ⟨by decide, rfl, rfl, rfl, rfl⟩

/-- One interruption at any moment is made good by the next run exactly when it left the
header as it was or as it was to be. -/
theorem interrupted_recovered_iff (env : Environment) (comment : LeadingComment) (files : SdkFiles)
    (linkerScript ethosuLog : List Char) (pristine : Pristine comment linkerScript ethosuLog files)
    (state : SdkFiles) (interrupted : Interrupted env files state)
    (success : (applyPatches env state).status = 0) :
    PatchedAs (applyPatches env files).files linkerScript ethosuLog (applyPatches env state).files ↔
      state .ethosuLog = files .ethosuLog ∨ state .ethosuLog = files .scriptDirEthosuLog := by
  have recoverable : Recoverable env comment linkerScript ethosuLog files := pristine.recoverable
  constructor
  · intro patched
    rcases interrupted with rfl | ⟨-, first | ⟨-, second⟩⟩
    · exact .inl rfl
    · exact .inl (recoverable.linkerScript_passes first).2
    · obtain ⟨-, untouched⟩ := linkerScript_passes pristine.linkerScript
        (passes_runAll files (linkerScriptCommands env files))
      have found : keptAt (runAll files (linkerScriptCommands env files)) .ethosuLog =
          some ⟨ethosuLog, none⟩ :=
        (keptAt_congr (untouched _ (by simp [Path.IsOf])) (untouched _ (by simp [Path.IsOf]))).trans
          pristine.ethosuLog
      have copied : runAll files (linkerScriptCommands env files) .scriptDirEthosuLog =
          some comment.ethosuLog := (untouched _ (by simp [Path.IsOf])).trans pristine.copied
      obtain ⟨left, others⟩ := ethosuLog_passes found copied second
      have original := (keptAt_some pristine.ethosuLog).1
      rcases left with ⟨next, stands, reaches⟩ | ⟨missed, written, torn⟩
      · have current := (keptAt_some stands).1
        cases reaches with
        | before | backup => exact .inl (current.trans original.symm)
        | edited => exact .inr (current.trans pristine.copied.symm)
      · have source : state .scriptDirEthosuLog = some comment.ethosuLog :=
          (others _ (by simp [Path.IsOf])).trans copied
        have last := (applyPatches_patched source success).ethosuLog
        rw [torn, Option.map_some] at last
        have once := applyPatches_patched pristine.copied (pristine.succeeds success)
        have texts := once.texts (keptAt_some pristine.linkerScript).1 original
        have made : (logFix comment).MadeOf ethosuLog
            ((logFix comment).make ⟨comment.ethosuLog.take written, some ethosuLog⟩) := by
          constructor
          · have header := patched.header
            rw [(keptAt_some last).1, texts.2] at header
            exact Option.some.inj header
          · intro text held
            refine patched.headerBackup text ?_
            rw [(keptAt_some last).2]
            exact held
        have current := (keptAt_some torn).1
        rcases (Edit.make_torn_iff missed).mp made with unwritten | whole
        · exact .inl (by rw [current, unwritten, original])
        · exact .inr (by rw [current, whole, pristine.copied]; rfl)
  · intro whole
    exact (recoverable.interrupted interrupted whole).patchedAs pristine success

/-- A run cut off when it has just emptied the header is not made good. -/
theorem interrupted_not_recovered :
    ¬PatchedAs (applyPatches posixEnvironment (sdkFiles "    *(.got)\n".toList ['\n'])).files
      "    *(.got)\n".toList ['\n']
      (applyPatches posixEnvironment (Function.update (Function.update
        (sdkFiles "    *(.got)\n".toList ['\n']) (.bak .ethosuLog) (some ['\n']))
        .ethosuLog (some []))).files := by
  have applied : grep (gotPattern posixEnvironment) "    *(.got)\n".toList := by
    refine grep_iff.mpr ⟨"    *(.got)".toList, ?_, gotPattern_inserted posixEnvironment⟩
    rw [String.toList_ofList, String.toList_ofList]
    decide +kernel
  have decided : linkerScriptCommands posixEnvironment (sdkFiles "    *(.got)\n".toList ['\n']) =
      if grep (gotPattern posixEnvironment) "    *(.got)\n".toList then []
      else [.cp .linkerScript (.bak .linkerScript), .sed insertGot .linkerScript,
        .rm (.tmp .linkerScript)] := rfl
  have missed : ¬grep traceLogPattern ['\n'] := by decide +kernel
  have chosen : ethosuLogCommands (sdkFiles "    *(.got)\n".toList ['\n']) =
      if grep traceLogPattern ['\n'] then []
      else [.cp .ethosuLog (.bak .ethosuLog), .cp .scriptDirEthosuLog .ethosuLog] := rfl
  have source : Function.update (sdkFiles "    *(.got)\n".toList ['\n']) (.bak .ethosuLog)
      (some ['\n']) .scriptDirEthosuLog = some (LeadingComment.mk [] (by simp) (by simp)).ethosuLog :=
    Function.update_of_ne (by decide) _ _
  have interrupted : Interrupted posixEnvironment (sdkFiles "    *(.got)\n".toList ['\n'])
      (Function.update (Function.update (sdkFiles "    *(.got)\n".toList ['\n']) (.bak .ethosuLog)
        (some ['\n'])) .ethosuLog (some [])) := by
    refine .inr ⟨⟨by decide, rfl⟩, .inr ⟨rfl, ?_⟩⟩
    rw [decided, if_pos applied, runAll, chosen, if_neg missed]
    have emptied : Cut _ (.cp .scriptDirEthosuLog .ethosuLog) _ := .cp source 0
    rw [List.take_zero] at emptied
    exact .later rfl (.cut emptied)
  refine (interrupted_recovered_iff posixEnvironment (LeadingComment.mk [] (by simp) (by simp)) _ _ _
    ⟨rfl, rfl, rfl⟩ _ interrupted (Ready.succeeds ⟨by decide, rfl, rfl, rfl, ?_⟩)).not.mpr ?_
  · rw [Function.update_of_ne (by decide), source]
    rfl
  · rw [Function.update_self]
    rintro (same | same)
    · cases same
    · exact LeadingComment.ethosuLog_ne_nil _ (Option.some.inj same).symm

end RunnerCm33
