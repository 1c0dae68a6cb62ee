import RunnerCm33.Patches.ApplyPatches
import RunnerCm33.Lib.GuardedEdits

/-! The two patches as edits that are made once. A run of `apply_patches.sh` that ends with
status 0 has made both; any number of such runs leave what the first one left. -/

namespace RunnerCm33

open RunnerCm33.Lines RunnerCm33.LinePatterns RunnerCm33.GuardedEdits

variable {env : Environment} {comment : LeadingComment} {files next : SdkFiles} {shell after : Shell}
  {text line : List Char} {path : Path}

theorem grep_iff {pattern : Pattern Char} :
    grep pattern text ↔ ∃ line ∈ bodies '\n' text, accepts pattern line :=
  List.any_eq_true

private theorem gotLines_clean : ∀ line ∈ gotLines, '\n' ∉ line := by decide +kernel

def insertedLines (line : List Char) : List (List Char) :=
  if accepts jcrPattern line then line :: gotLines else [line]

theorem insertGot_bodies (text : List Char) :
    bodies '\n' (insertGot text) = (bodies '\n' text).flatMap insertedLines :=
  bodies_appendAfter gotLines_clean text

private theorem mem_insertGot (present : line ∈ bodies '\n' text) (anchor : accepts jcrPattern line)
    {inserted : List Char} (member : inserted ∈ gotLines) : inserted ∈ bodies '\n' (insertGot text) := by
  rw [insertGot_bodies, List.mem_flatMap]
  refine ⟨line, present, ?_⟩
  rw [insertedLines, if_pos anchor]
  exact List.mem_cons_of_mem _ member

theorem gotPattern_inserted (env : Environment) : accepts (gotPattern env) "    *(.got)".toList := by
  rw [accepts_iff]
  have spaces : Matches [.many env.isSpace] ("    ".toList ++ []) := by
    refine .many ?_ .nil
    intro char member
    rw [List.eq_of_mem_replicate (n := 4) member]
    exact env.blank
  have dot : Matches [anyChar] ['.'] := .one rfl .nil
  exact (((spaces.append (matches_literal "*(".toList)).append dot).append
    (matches_literal "got)".toList)).append (matches_anything [])

def gotFix (env : Environment) : Edit (List Char) where
  applied := grep (gotPattern env)
  edit := insertGot
  settles := by
    intro text _
    by_cases anchored : ∃ line ∈ bodies '\n' text, accepts jcrPattern line
    · obtain ⟨line, present, anchor⟩ := anchored
      have inserted : "    *(.got)".toList ∈ bodies '\n' (insertGot text) :=
        mem_insertGot present anchor (by decide +kernel)
      exact .inl (grep_iff.mpr ⟨_, inserted, gotPattern_inserted env⟩)
    · push Not at anchored
      exact .inr (appendAfter_of_none anchored)

private theorem traceLog_ethosuLogLines :
    ∃ line ∈ ethosuLogLines.map String.toList, accepts traceLogPattern line := by
  simp only [ethosuLogLines, List.map_cons, List.map_nil]
  repeat rw [String.toList_ofList]
  decide +kernel

/-- Patch 2 as an edit. -/
def logFix (comment : LeadingComment) : Edit (List Char) where
  applied := grep traceLogPattern
  edit := fun _ => comment.ethosuLog
  settles := by
    intro text _
    obtain ⟨line, present, named⟩ := traceLog_ethosuLogLines
    exact .inl (grep_iff.mpr ⟨line, mem_ethosuLog present, named⟩)

def keptAt (files : SdkFiles) (path : Path) : Option (Kept (List Char)) :=
  (files path).map fun text => ⟨text, files (.bak path)⟩

/-- The files a patch writes. -/
def Path.IsOf (path target : Path) : Prop :=
  path = target ∨ path = .bak target ∨ path = .tmp target

/-- A patch has made its edit and left all other files alone. -/
structure Patched (edit : Edit (List Char)) (target : Path) (files after : SdkFiles) : Prop where
  kept : keptAt after target = (keptAt files target).map edit.make
  others : ∀ path, ¬path.IsOf target → after path = files path

theorem keptAt_eq (present : files path = some text) :
    keptAt files path = some ⟨text, files (.bak path)⟩ := by
  rw [keptAt, present]
  rfl

theorem keptAt_some {kept : Kept (List Char)} (found : keptAt files path = some kept) :
    files path = some kept.current ∧ files (.bak path) = kept.backup := by
  obtain ⟨text, present, rfl⟩ := Option.map_eq_some_iff.mp found
  exact ⟨present, rfl⟩

theorem Patched.skip {edit : Edit (List Char)} (present : files path = some text)
    (applied : edit.applied text) : Patched edit path files files where
  kept := by
    rw [keptAt_eq present, Option.map_some, Edit.make, if_pos applied]
  others _ _ := rfl

theorem Patched.write {edit : Edit (List Char)} (present : files path = some text)
    (missing : ¬edit.applied text) (current : next path = some (edit.edit text))
    (backup : next (.bak path) = some text)
    (others : ∀ other : Path, ¬other.IsOf path → next other = files other) :
    Patched edit path files next where
  kept := by
    rw [keptAt_eq present, keptAt_eq current, backup, Option.map_some, Edit.make, if_neg missing]
  others := others

/-! ### The patches, branch by branch -/

theorem patchLinkerScript_skips (present : shell.files .linkerScript = some text)
    (applied : grep (gotPattern env) text) :
    ∃ output, patchLinkerScript env shell = .ok ⟨shell.files, output⟩ := by
  simp [patchLinkerScript, Shell.echo, present, applied]

/-- Where its detector finds nothing, patch 1 announces the insertion, made or not. -/
theorem patchLinkerScript_inserts (present : shell.files .linkerScript = some text)
    (missing : ¬grep (gotPattern env) text) :
    ∃ after, patchLinkerScript env shell = .ok after ∧
      after.files .linkerScript = some (insertGot text) ∧
      after.files (.bak .linkerScript) = some text ∧
      (∀ path : Path, ¬path.IsOf .linkerScript → after.files path = shell.files path) ∧
      "  APPLIED: Added *(.got) and *(.got.plt) inside .data section." ∈ after.output := by
  simp only [patchLinkerScript, Shell.echo, Shell.cp, Shell.sed, Shell.rm, present, missing, bind,
    Except.bind, pure, Except.pure, Function.update_of_ne, ne_eq, reduceCtorEq, not_false_eq_true,
    Bool.false_eq_true, if_false]
  refine ⟨_, rfl, by simp, by simp, ?_, by simp⟩
  intro path apart
  simp only [Path.IsOf, not_or] at apart
  simp [apart]

private theorem patchEthosuLog_skips (present : shell.files .ethosuLog = some text)
    (applied : grep traceLogPattern text) :
    ∃ output, patchEthosuLog env shell = .ok ⟨shell.files, output⟩ := by
  simp [patchEthosuLog, Shell.echo, present, applied]

private theorem patchEthosuLog_copies {patched : List Char} (present : shell.files .ethosuLog = some text)
    (copied : shell.files .scriptDirEthosuLog = some patched) (missing : ¬grep traceLogPattern text) :
    ∃ after, patchEthosuLog env shell = .ok after ∧
      after.files .ethosuLog = some patched ∧
      after.files (.bak .ethosuLog) = some text ∧
      ∀ path : Path, ¬path.IsOf .ethosuLog → after.files path = shell.files path := by
  simp only [patchEthosuLog, Shell.echo, Shell.cp, present, copied, missing, bind, Except.bind, pure,
    Except.pure, Function.update_of_ne, ne_eq, reduceCtorEq, not_false_eq_true, Bool.false_eq_true,
    if_false]
  refine ⟨_, rfl, by simp, by simp, ?_⟩
  intro path apart
  simp only [Path.IsOf, not_or] at apart
  simp [apart]

private theorem patchLinkerScript_ok (success : patchLinkerScript env shell = .ok after) :
    Patched (gotFix env) .linkerScript shell.files after.files := by
  cases present : shell.files .linkerScript with
  | none => simp [patchLinkerScript, Shell.echo, present, Shell.exit] at success
  | some text =>
    by_cases applied : grep (gotPattern env) text
    · obtain ⟨output, skipped⟩ := patchLinkerScript_skips present applied
      rw [skipped] at success
      obtain rfl := Except.ok.inj success
      exact .skip present applied
    · obtain ⟨_, inserted, current, backup, others, -⟩ := patchLinkerScript_inserts present applied
      rw [inserted] at success
      obtain rfl := Except.ok.inj success
      exact .write present applied current backup others

private theorem patchEthosuLog_ok (copied : shell.files .scriptDirEthosuLog = some comment.ethosuLog)
    (success : patchEthosuLog env shell = .ok after) :
    Patched (logFix comment) .ethosuLog shell.files after.files := by
  cases present : shell.files .ethosuLog with
  | none => simp [patchEthosuLog, Shell.echo, present, Shell.exit] at success
  | some text =>
    by_cases applied : grep traceLogPattern text
    · obtain ⟨output, skipped⟩ := patchEthosuLog_skips present applied
      rw [skipped] at success
      obtain rfl := Except.ok.inj success
      exact .skip present applied
    · obtain ⟨_, written, current, backup, others⟩ := patchEthosuLog_copies present copied applied
      rw [written] at success
      obtain rfl := Except.ok.inj success
      exact .write present applied current backup others

private theorem patchLinkerScript_succeeds (env : Environment) (found : (shell.files .linkerScript).isSome) :
    ∃ after, patchLinkerScript env shell = .ok after := by
  obtain ⟨text, present⟩ := Option.isSome_iff_exists.mp found
  by_cases applied : grep (gotPattern env) text
  · obtain ⟨output, skipped⟩ := patchLinkerScript_skips present applied
    exact ⟨_, skipped⟩
  · obtain ⟨after, inserted, -⟩ := patchLinkerScript_inserts present applied
    exact ⟨after, inserted⟩

private theorem patchEthosuLog_succeeds (env : Environment) (found : (shell.files .ethosuLog).isSome)
    (source : (shell.files .scriptDirEthosuLog).isSome) :
    ∃ after, patchEthosuLog env shell = .ok after := by
  obtain ⟨text, present⟩ := Option.isSome_iff_exists.mp found
  obtain ⟨patched, copied⟩ := Option.isSome_iff_exists.mp source
  by_cases applied : grep traceLogPattern text
  · obtain ⟨output, skipped⟩ := patchEthosuLog_skips present applied
    exact ⟨_, skipped⟩
  · obtain ⟨after, written, -⟩ := patchEthosuLog_copies present copied applied
    exact ⟨after, written⟩

/-! ### The whole script -/

theorem Ran.ok_of_status {ran : Ran} (success : ran.status = 0) : ∃ shell, ran = .ok shell := by
  cases ran with
  | error exited => exact absurd success exited.failed
  | ok shell => exact ⟨shell, rfl⟩

private theorem Ran.ok_of_bind {ran : Ran} {next : Shell → Ran} (success : ran >>= next = .ok after) :
    ∃ middle, ran = .ok middle ∧ next middle = .ok after := by
  cases ran with
  | error exited => cases success
  | ok middle => exact ⟨middle, rfl, success⟩

theorem applyPatches_ok (success : (applyPatches env files).status = 0) :
    ∃ start first second third : Shell, start.files = files ∧
      patchLinkerScript env start = .ok first ∧ second.files = first.files ∧
      patchEthosuLog env second = .ok third ∧ (applyPatches env files).files = third.files := by
  obtain ⟨after, ran⟩ := Ran.ok_of_status success
  rw [ran]
  unfold applyPatches at ran
  split at ran
  · cases ran
  · split at ran
    · cases ran
    · obtain ⟨first, linker, rest⟩ := Ran.ok_of_bind ran
      obtain ⟨third, header, ends⟩ := Ran.ok_of_bind rest
      cases ends
      exact ⟨_, first, first.echo "", third, rfl, linker, rfl, header, rfl⟩

/-- What a run with status 0 has done to the files. -/
structure BothPatched (env : Environment) (comment : LeadingComment) (files after : SdkFiles) : Prop where
  linkerScript : keptAt after .linkerScript = (keptAt files .linkerScript).map (gotFix env).make
  ethosuLog : keptAt after .ethosuLog = (keptAt files .ethosuLog).map (logFix comment).make
  others : ∀ path : Path, ¬path.IsOf .linkerScript → ¬path.IsOf .ethosuLog → after path = files path

theorem keptAt_congr {other : SdkFiles} (same : other path = files path)
    (backup : other (.bak path) = files (.bak path)) : keptAt other path = keptAt files path := by
  rw [keptAt, keptAt, same, backup]

theorem applyPatches_patched (copied : files .scriptDirEthosuLog = some comment.ethosuLog)
    (success : (applyPatches env files).status = 0) :
    BothPatched env comment files (applyPatches env files).files := by
  obtain ⟨start, first, second, third, rfl, linkerRan, same, headerRan, ends⟩ := applyPatches_ok success
  have linker := patchLinkerScript_ok linkerRan
  have still : second.files .scriptDirEthosuLog = some comment.ethosuLog := by
    rw [same, ← copied]
    exact linker.others _ (by simp [Path.IsOf])
  have header : Patched (logFix comment) .ethosuLog first.files third.files :=
    same ▸ patchEthosuLog_ok still headerRan
  rw [ends]
  constructor
  · rw [← linker.kept]
    apply keptAt_congr <;> exact header.others _ (by simp [Path.IsOf])
  · rw [header.kept]
    congr 1
    apply keptAt_congr <;> exact linker.others _ (by simp [Path.IsOf])
  · intro path apart away
    rw [header.others path away, linker.others path apart]

theorem BothPatched.texts {linkerScript ethosuLog : List Char} (patched : BothPatched env comment files next)
    (script : files .linkerScript = some linkerScript) (header : files .ethosuLog = some ethosuLog) :
    next .linkerScript = some ((gotFix env).result linkerScript) ∧
      next .ethosuLog = some ((logFix comment).result ethosuLog) := by
  have keptScript := patched.linkerScript
  have keptHeader := patched.ethosuLog
  rw [keptAt_eq script, Option.map_some] at keptScript
  rw [keptAt_eq header, Option.map_some] at keptHeader
  rw [(keptAt_some keptScript).1, (keptAt_some keptHeader).1, Edit.make_current, Edit.make_current]
  exact ⟨rfl, rfl⟩

/-- The script finds all it needs. -/
structure Ready (env : Environment) (files : SdkFiles) : Prop where
  set : env.sdkRootDirPath ≠ ""
  directory : env.sdkIsDirectory
  linkerScript : (files .linkerScript).isSome
  ethosuLog : (files .ethosuLog).isSome
  scriptDirEthosuLog : (files .scriptDirEthosuLog).isSome

theorem Ready.succeeds (ready : Ready env files) : (applyPatches env files).status = 0 := by
  unfold applyPatches
  rw [if_neg ready.set, if_neg (by simp [ready.directory])]
  have found : ((((Shell.mk files []).echo "=== ExecuTorch Runner SDK Patches ===").echo "").files
      .linkerScript).isSome := ready.linkerScript
  obtain ⟨first, linker⟩ := patchLinkerScript_succeeds env found
  have others := (patchLinkerScript_ok linker).others
  have log : first.files .ethosuLog = files .ethosuLog := others _ (by simp [Path.IsOf])
  have source : first.files .scriptDirEthosuLog = files .scriptDirEthosuLog :=
    others _ (by simp [Path.IsOf])
  have foundLog : ((first.echo "").files .ethosuLog).isSome := log ▸ ready.ethosuLog
  have foundSource : ((first.echo "").files .scriptDirEthosuLog).isSome :=
    source ▸ ready.scriptDirEthosuLog
  obtain ⟨third, header⟩ := patchEthosuLog_succeeds env foundLog foundSource
  simp only [linker, header, bind, Except.bind]
  rfl

private theorem keptAt_isSome : (keptAt files path).isSome = (files path).isSome :=
  Option.isSome_map

theorem Ready.again (ready : Ready env files) (patched : BothPatched env comment files next) :
    Ready env next where
  set := ready.set
  directory := ready.directory
  linkerScript := by
    rw [← keptAt_isSome, patched.linkerScript, Option.isSome_map, keptAt_isSome]
    exact ready.linkerScript
  ethosuLog := by
    rw [← keptAt_isSome, patched.ethosuLog, Option.isSome_map, keptAt_isSome]
    exact ready.ethosuLog
  scriptDirEthosuLog := by
    have same : next .scriptDirEthosuLog = files .scriptDirEthosuLog :=
      patched.others _ (by simp [Path.IsOf]) (by simp [Path.IsOf])
    exact same ▸ ready.scriptDirEthosuLog

def posixEnvironment : Environment where
  sdkRootDirPath := "/root"
  sdkIsDirectory := true
  isSpace := fun char => char = ' ' || '\t' ≤ char && char ≤ '\r'
  blank := by decide

/-- The repository's header next to the script, and no backups. -/
def sdkFiles (linkerScript ethosuLog : List Char) : SdkFiles
  | .linkerScript => some linkerScript
  | .ethosuLog => some ethosuLog
  | .scriptDirEthosuLog => some (LeadingComment.mk [] (by simp) (by simp)).ethosuLog
  | .bak _ | .tmp _ => none

theorem sdkFiles_ready (linkerScript ethosuLog : List Char) :
    Ready posixEnvironment (sdkFiles linkerScript ethosuLog) := by
  constructor <;> simp [posixEnvironment, sdkFiles]

end RunnerCm33
