import RunnerCm33.Patches.Edits

/-! `apply_patches.sh` run again and again. -/

namespace RunnerCm33

open RunnerCm33.GuardedEdits

/-- So many runs one after the other, each with status 0. -/
inductive SuccessfulRuns (env : Environment) (files : SdkFiles) : ℕ → SdkFiles → Prop where
  | zero : SuccessfulRuns env files 0 files
  | succ {n : ℕ} {middle : SdkFiles} (runs : SuccessfulRuns env files n middle)
      (success : (applyPatches env middle).status = 0) :
      SuccessfulRuns env files (n + 1) (applyPatches env middle).files

/-- Both patches have been made of the original texts. -/
structure BothMadeOf (env : Environment) (comment : LeadingComment) (linkerScript ethosuLog : List Char)
    (files : SdkFiles) : Prop where
  linkerScript : ∃ kept, keptAt files .linkerScript = some kept ∧ (gotFix env).MadeOf linkerScript kept
  ethosuLog : ∃ kept, keptAt files .ethosuLog = some kept ∧ (logFix comment).MadeOf ethosuLog kept
  copied : files .scriptDirEthosuLog = some comment.ethosuLog

variable {env : Environment} {comment : LeadingComment} {files after : SdkFiles}
  {linkerScript ethosuLog : List Char} {path : Path} {n : ℕ}

theorem BothPatched.copied (patched : BothPatched env comment files after) :
    after .scriptDirEthosuLog = files .scriptDirEthosuLog :=
  patched.others _ (by simp [Path.IsOf]) (by simp [Path.IsOf])

theorem BothPatched.madeOf (patched : BothPatched env comment files after)
    (script : keptAt files .linkerScript = some ⟨linkerScript, none⟩)
    (header : keptAt files .ethosuLog = some ⟨ethosuLog, none⟩)
    (copied : files .scriptDirEthosuLog = some comment.ethosuLog) :
    BothMadeOf env comment linkerScript ethosuLog after where
  linkerScript := ⟨_, by rw [patched.linkerScript, script, Option.map_some], Edit.make_pristine⟩
  ethosuLog := ⟨_, by rw [patched.ethosuLog, header, Option.map_some], Edit.make_pristine⟩
  copied := by rw [patched.copied, copied]

theorem BothMadeOf.again (made : BothMadeOf env comment linkerScript ethosuLog files)
    (patched : BothPatched env comment files after) :
    BothMadeOf env comment linkerScript ethosuLog after := by
  obtain ⟨script, foundScript, madeScript⟩ := made.linkerScript
  obtain ⟨header, foundHeader, madeHeader⟩ := made.ethosuLog
  constructor
  · exact ⟨_, by rw [patched.linkerScript, foundScript, Option.map_some], madeScript.again⟩
  · exact ⟨_, by rw [patched.ethosuLog, foundHeader, Option.map_some], madeHeader.again⟩
  · rw [patched.copied, made.copied]

/-- After one run or more, both patches have been made of the texts before the first. -/
theorem SuccessfulRuns.madeOf (runs : SuccessfulRuns env files (n + 1) after)
    (script : keptAt files .linkerScript = some ⟨linkerScript, none⟩)
    (header : keptAt files .ethosuLog = some ⟨ethosuLog, none⟩)
    (copied : files .scriptDirEthosuLog = some comment.ethosuLog) :
    BothMadeOf env comment linkerScript ethosuLog after := by
  induction n generalizing after with
  | zero =>
    cases runs with
    | succ before success =>
      cases before
      exact (applyPatches_patched copied success).madeOf script header copied
  | succ n ih =>
    cases runs with
    | succ before success =>
      have made := ih before
      exact made.again (applyPatches_patched made.copied success)

theorem BothMadeOf.texts (made : BothMadeOf env comment linkerScript ethosuLog files) :
    files .linkerScript = some ((gotFix env).result linkerScript) ∧
      files .ethosuLog = some ((logFix comment).result ethosuLog) := by
  obtain ⟨script, foundScript, madeScript⟩ := made.linkerScript
  obtain ⟨header, foundHeader, madeHeader⟩ := made.ethosuLog
  rw [← madeScript.current, ← madeHeader.current]
  exact ⟨(keptAt_some foundScript).1, (keptAt_some foundHeader).1⟩

private theorem BothMadeOf.backups (made : BothMadeOf env comment linkerScript ethosuLog files) :
    (∀ text ∈ files (.bak .linkerScript), text = linkerScript) ∧
      ∀ text ∈ files (.bak .ethosuLog), text = ethosuLog := by
  obtain ⟨script, foundScript, madeScript⟩ := made.linkerScript
  obtain ⟨header, foundHeader, madeHeader⟩ := made.ethosuLog
  rw [(keptAt_some foundScript).2, (keptAt_some foundHeader).2]
  exact ⟨madeScript.backup, madeHeader.backup⟩

theorem Ready.runs (ready : Ready env files) (copied : files .scriptDirEthosuLog = some comment.ethosuLog)
    (n : ℕ) :
    ∃ last, SuccessfulRuns env files n last ∧ Ready env last ∧
      last .scriptDirEthosuLog = some comment.ethosuLog := by
  induction n with
  | zero => exact ⟨files, .zero, ready, copied⟩
  | succ n ih =>
    obtain ⟨last, runs, lastReady, lastCopied⟩ := ih
    have patched := applyPatches_patched lastCopied lastReady.succeeds
    refine ⟨_, .succ runs lastReady.succeeds, lastReady.again patched, ?_⟩
    rw [patched.copied, lastCopied]

/-- For all texts of the linker script and the header, without backups: after any number
of successful runs both files are what one run makes of them, and every backup is the
original. -/
theorem applyPatches_idempotent (env : Environment) (comment : LeadingComment) (files : SdkFiles)
    (linkerScript ethosuLog : List Char) (script : files .linkerScript = some linkerScript)
    (header : files .ethosuLog = some ethosuLog)
    (copied : files .scriptDirEthosuLog = some comment.ethosuLog)
    (noScriptBackup : files (.bak .linkerScript) = none) (noHeaderBackup : files (.bak .ethosuLog) = none)
    (n : ℕ) (positive : 1 ≤ n) (first last : SdkFiles) (once : SuccessfulRuns env files 1 first)
    (runs : SuccessfulRuns env files n last) :
    last .linkerScript = first .linkerScript ∧ last .ethosuLog = first .ethosuLog ∧
      (∀ text ∈ last (.bak .linkerScript), text = linkerScript) ∧
      (∀ text ∈ last (.bak .ethosuLog), text = ethosuLog) := by
  obtain ⟨n, rfl⟩ := Nat.exists_eq_add_of_le' positive
  have keptScript : keptAt files .linkerScript = some ⟨linkerScript, none⟩ := by
    rw [keptAt_eq script, noScriptBackup]
  have keptHeader : keptAt files .ethosuLog = some ⟨ethosuLog, none⟩ := by
    rw [keptAt_eq header, noHeaderBackup]
  have madeFirst := once.madeOf keptScript keptHeader copied
  have madeLast := runs.madeOf keptScript keptHeader copied
  rw [madeLast.texts.1, madeLast.texts.2, madeFirst.texts.1, madeFirst.texts.2]
  exact ⟨rfl, rfl, madeLast.backups⟩

/-- Two runs over a linker script with the line for `.jcr`. -/
theorem applyPatches_idempotent_twice :
    ∃ first last : SdkFiles, SuccessfulRuns posixEnvironment
        (sdkFiles "  KEEP(*(.jcr*))\n".toList "#define LOG_ERR(f, ...) PRINTF(f)\n".toList) 2 last ∧
      last .linkerScript = first .linkerScript ∧ last .ethosuLog = first .ethosuLog ∧
      (∀ text ∈ last (.bak .linkerScript), text = "  KEEP(*(.jcr*))\n".toList) ∧
      (∀ text ∈ last (.bak .ethosuLog), text = "#define LOG_ERR(f, ...) PRINTF(f)\n".toList) := by
  have ready := sdkFiles_ready "  KEEP(*(.jcr*))\n".toList "#define LOG_ERR(f, ...) PRINTF(f)\n".toList
  obtain ⟨first, once, -⟩ := ready.runs rfl 1
  obtain ⟨last, runs, -⟩ := ready.runs rfl 2
  exact ⟨first, last, runs, applyPatches_idempotent posixEnvironment _ _ _ _ rfl rfl rfl rfl rfl 2
    (by decide) first last once runs⟩

end RunnerCm33
