import RunnerCm33.Patches.Edits

/-! Which SDKs `apply_patches.sh` leaves with both fixes installed. Its detectors look at
single lines anywhere in a file, and `sed` prints nothing where its line is missing. -/

namespace RunnerCm33

open RunnerCm33.Lines RunnerCm33.LinePatterns RunnerCm33.GuardedEdits

/-- A line with `KEEP(*(.jcr*))`. -/
def keepJcrPattern : Pattern Char := [anything] ++ literal "KEEP(*(.jcr*))".toList ++ [anything]

/-- A line with nothing but an entry of a section. -/
def entryPattern (entry : String) : Pattern Char :=
  [.many isBlank] ++ literal entry.toList ++ [.many isBlank]

/-- A line with nothing but a comment. -/
def commentPattern : Pattern Char :=
  [.many isBlank] ++ literal "/*".toList ++ [.many (· ≠ '*')] ++ literal "*/".toList ++ [.many isBlank]

/-- The entries for the GOT stand right behind a line with `KEEP(*(.jcr*))`, with at most
comments between. -/
def GotInstalled (linkerScript : List Char) : Prop :=
  ∃ before keep comments got gotPlt after,
    bodies '\n' linkerScript = before ++ keep :: (comments ++ got :: gotPlt :: after) ∧
      accepts keepJcrPattern keep ∧ (∀ comment ∈ comments, accepts commentPattern comment) ∧
      accepts (entryPattern "*(.got)") got ∧ accepts (entryPattern "*(.got.plt)") gotPlt

/-- Both fixes are in the files, for a reading of headers. -/
structure Installed (redirects : List Char → Prop) (files : SdkFiles) : Prop where
  linkerScript : ∃ text, files .linkerScript = some text ∧ GotInstalled text
  ethosuLog : ∃ text, files .ethosuLog = some text ∧ redirects text

/-- The fix stands where it belongs, or the detector finds none and there is a place for it. -/
def GotInstallable (env : Environment) (linkerScript : List Char) : Prop :=
  GotInstalled linkerScript ∨ ¬grep (gotPattern env) linkerScript ∧ grep keepJcrPattern linkerScript

/-- The header redirects the log macros, or does not name `ethosu_trace_log`. -/
def LogInstallable (redirects : List Char → Prop) (ethosuLog : List Char) : Prop :=
  redirects ethosuLog ∨ ¬grep traceLogPattern ethosuLog

variable {env : Environment} {comment : LeadingComment} {files : SdkFiles}
  {linkerScript ethosuLog line : List Char} {redirects : List Char → Prop}

private theorem jcr_of_keepJcr (keep : accepts keepJcrPattern line) : accepts jcrPattern line := by
  rw [accepts_iff] at keep ⊢
  have split : "KEEP(*(.jcr*))".toList = "KEEP(*(".toList ++ ['.'] ++ "jcr*))".toList := by decide +kernel
  rw [keepJcrPattern, matches_append_iff] at keep
  obtain ⟨most, tail, rfl, start, rest⟩ := keep
  rw [matches_append_iff] at start
  obtain ⟨head, middle, rfl, first, named⟩ := start
  rw [matches_literal_iff.mp named, split]
  have dot : Matches [anyChar] ['.'] := .one rfl .nil
  have inside := (matches_literal "KEEP(*(".toList).append (dot.append (matches_literal "jcr*))".toList))
  simpa only [jcrPattern, List.append_assoc] using first.append (inside.append rest)

private theorem GotInstalled.keepJcr (installed : GotInstalled linkerScript) :
    grep keepJcrPattern linkerScript := by
  obtain ⟨before, keep, comments, got, gotPlt, after, split, anchor, -⟩ := installed
  rw [grep_iff]
  exact ⟨keep, by simp [split], anchor⟩

/-- Inserting the lines installs the fix exactly where there is a line for them. -/
theorem insertGot_installed_iff : GotInstalled (insertGot linkerScript) ↔ grep keepJcrPattern linkerScript := by
  constructor
  · intro installed
    obtain ⟨keep, present, anchor⟩ := grep_iff.mp installed.keepJcr
    rw [insertGot_bodies, List.mem_flatMap] at present
    obtain ⟨line, original, printed⟩ := present
    have kept : keep = line ∨ keep ∈ gotLines := by
      unfold insertedLines at printed
      split at printed
      · exact List.mem_cons.mp printed
      · exact .inl (List.mem_singleton.mp printed)
    rcases kept with rfl | inserted
    · exact grep_iff.mpr ⟨keep, original, anchor⟩
    · have others : ∀ line ∈ gotLines, ¬accepts keepJcrPattern line := by decide +kernel
      exact absurd anchor (others keep inserted)
  · intro anchored
    obtain ⟨keep, present, anchor⟩ := grep_iff.mp anchored
    obtain ⟨before, after, split⟩ := List.append_of_mem present
    have behind : insertedLines keep = keep :: gotLines := if_pos (jcr_of_keepJcr anchor)
    refine ⟨before.flatMap insertedLines, keep, [gotLines[0]], gotLines[1], gotLines[2],
      after.flatMap insertedLines, ?_, anchor, by decide +kernel, by decide +kernel, by decide +kernel⟩
    rw [insertGot_bodies, split, List.flatMap_append, List.flatMap_cons, behind]
    rfl

private theorem gotFix_installed_iff :
    GotInstalled ((gotFix env).result linkerScript) ↔ GotInstallable env linkerScript := by
  by_cases applied : grep (gotPattern env) linkerScript
  · have unchanged : (gotFix env).result linkerScript = linkerScript := if_pos applied
    rw [unchanged, GotInstallable]
    simp [applied]
  · have inserted : (gotFix env).result linkerScript = insertGot linkerScript := if_neg applied
    rw [inserted, insertGot_installed_iff, GotInstallable]
    constructor
    · exact fun anchored => .inr ⟨applied, anchored⟩
    · rintro (installed | ⟨-, anchored⟩)
      · exact installed.keepJcr
      · exact anchored

private theorem logFix_redirects_iff (own : redirects comment.ethosuLog) :
    redirects ((logFix comment).result ethosuLog) ↔ LogInstallable redirects ethosuLog := by
  by_cases applied : grep traceLogPattern ethosuLog
  · have unchanged : (logFix comment).result ethosuLog = ethosuLog := if_pos applied
    rw [unchanged, LogInstallable]
    simp [applied]
  · have copied : (logFix comment).result ethosuLog = comment.ethosuLog := if_neg applied
    rw [copied]
    exact iff_of_true own (.inr applied)

private theorem BothPatched.installed_iff {next : SdkFiles} (patched : BothPatched env comment files next)
    (script : files .linkerScript = some linkerScript) (header : files .ethosuLog = some ethosuLog)
    (own : redirects comment.ethosuLog) :
    Installed redirects next ↔ GotInstallable env linkerScript ∧ LogInstallable redirects ethosuLog := by
  obtain ⟨scriptAfter, headerAfter⟩ := patched.texts script header
  rw [← gotFix_installed_iff, ← logFix_redirects_iff own]
  constructor
  · intro installed
    obtain ⟨scriptText, foundScript, got⟩ := installed.linkerScript
    obtain ⟨headerText, foundHeader, redirected⟩ := installed.ethosuLog
    rw [scriptAfter] at foundScript
    rw [headerAfter] at foundHeader
    exact ⟨Option.some.inj foundScript ▸ got, Option.some.inj foundHeader ▸ redirected⟩
  · intro ⟨got, redirected⟩
    exact ⟨⟨_, scriptAfter, got⟩, ⟨_, headerAfter, redirected⟩⟩

/-- For all texts of the linker script and the header: a run that ends with status 0 has
installed both fixes exactly when each stood in its place already, or its detector finds
nothing and, for the linker script, there is a line with `KEEP(*(.jcr*))`. What redirects
the log macros is up to the compiler, provided that the repository's header does. -/
theorem applyPatches_installs_iff (redirects : List Char → Prop) (env : Environment)
    (comment : LeadingComment) (files : SdkFiles) (linkerScript ethosuLog : List Char)
    (own : redirects comment.ethosuLog) (script : files .linkerScript = some linkerScript)
    (header : files .ethosuLog = some ethosuLog)
    (copied : files .scriptDirEthosuLog = some comment.ethosuLog)
    (success : (applyPatches env files).status = 0) :
    Installed redirects (applyPatches env files).files ↔
      GotInstallable env linkerScript ∧ LogInstallable redirects ethosuLog :=
  (applyPatches_patched copied success).installed_iff script header own

/-- The line for `.jcr` with a header that prints, and with one that names the function
in a comment only. -/
theorem applyPatches_installs_both :
    Installed RedirectsLogs (applyPatches posixEnvironment
        (sdkFiles "  KEEP(*(.jcr*))\n".toList "#define LOG_ERR(f, ...) PRINTF(f)\n".toList)).files ∧
      ¬Installed RedirectsLogs (applyPatches posixEnvironment
        (sdkFiles "  KEEP(*(.jcr*))\n".toList
          "/*\n#define LOG_ERR ethosu_trace_log\n*/\n#define LOG_ERR printf\n".toList)).files := by
  constructor
  · exact (applyPatches_installs_iff RedirectsLogs posixEnvironment _ _ _ _
      (LeadingComment.ethosuLog_redirects _) rfl rfl rfl (sdkFiles_ready _ _).succeeds).mpr
      ⟨.inr ⟨by decide, by decide⟩, .inr (by decide)⟩
  · rw [applyPatches_installs_iff RedirectsLogs posixEnvironment _ _ _ _
      (LeadingComment.ethosuLog_redirects _) rfl rfl rfl (sdkFiles_ready _ _).succeeds]
    rintro ⟨-, redirected | unnamed⟩
    · revert redirected
      decide +kernel
    · exact unnamed (by decide +kernel)

/-- A linker script without that line: status 0, and no entry for the GOT. -/
theorem applyPatches_installs_nothing :
    ¬ ∀ (redirects : List Char → Prop) (env : Environment) (comment : LeadingComment) (files : SdkFiles)
        (linkerScript ethosuLog : List Char), redirects comment.ethosuLog →
      files .linkerScript = some linkerScript → files .ethosuLog = some ethosuLog →
      files .scriptDirEthosuLog = some comment.ethosuLog → (applyPatches env files).status = 0 →
      Installed redirects (applyPatches env files).files := by
  intro claim
  have success := (sdkFiles_ready "  *(.data)\n".toList "#define LOG_ERR(f, ...) PRINTF(f)\n".toList).succeeds
  have own := LeadingComment.ethosuLog_redirects (LeadingComment.mk [] (by simp) (by simp))
  have installed := claim RedirectsLogs posixEnvironment _ _ _ _ own rfl rfl rfl success
  obtain ⟨got, -⟩ := ((applyPatches_patched rfl success).installed_iff rfl rfl own).mp installed
  have unanchored : grep keepJcrPattern "  *(.data)\n".toList = false := by decide
  have anchored : grep keepJcrPattern "  *(.data)\n".toList := by
    rcases got with inPlace | ⟨-, anchored⟩
    · exact inPlace.keepJcr
    · exact anchored
  rw [unanchored] at anchored
  cases anchored

end RunnerCm33
