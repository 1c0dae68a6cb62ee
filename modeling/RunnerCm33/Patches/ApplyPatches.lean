import RunnerCm33.Patches.EthosuLog
import Mathlib.Logic.Function.Basic

/-! `patches/apply_patches.sh`: the files it touches, the commands it calls, and its two
patches. The header that it copies is the one of the repository. -/

namespace RunnerCm33

open RunnerCm33.Lines RunnerCm33.LinePatterns

/-- `$LINKER_SCRIPT`, `$ETHOSU_LOG`, `$SCRIPT_DIR/ethosu_log.h`, and the names made of them. -/
inductive Path where
  | linkerScript | ethosuLog | scriptDirEthosuLog
  | bak (path : Path)
  | tmp (path : Path)
deriving DecidableEq, Repr

/-- The regular files that exist, with their texts in the characters of the locale. -/
abbrev SdkFiles := Path → Option (List Char)

/-- What the script finds besides files: the variable (empty when it is not set), whether
`$SDK` is a directory, and the class `[:space:]` of the locale, which has the blank. -/
structure Environment where
  sdkRootDirPath : String
  sdkIsDirectory : Bool
  isSpace : Char → Bool
  blank : isSpace ' '

def Environment.sdk (env : Environment) : String := env.sdkRootDirPath ++ "/mcuxsdk"

def Environment.linkerScript (env : Environment) : String :=
  env.sdk ++ "/devices/i.MX/i.MX93/MIMX9352/gcc/MIMX9352xxxxM_ram.ld"

def Environment.ethosuLog (env : Environment) : String :=
  env.sdk ++ "/middleware/eiq/ethos-u-core-software/core_driver/src/ethosu_log.h"

structure Shell where
  files : SdkFiles
  output : List String

/-- The end of the script at `exit 1`, or at a command that fails under `set -e`. -/
structure Exited where
  status : ℕ
  shell : Shell
  failed : status ≠ 0

/-- A run ends early or, with status 0, behind its last line. -/
abbrev Ran := Except Exited Shell

def Ran.status : Ran → ℕ
  | .ok _ => 0
  | .error exited => exited.status

def Ran.files : Ran → SdkFiles
  | .ok shell => shell.files
  | .error exited => exited.shell.files

namespace Shell

def echo (shell : Shell) (line : String) : Shell := { shell with output := shell.output ++ [line] }

/-- `exit 1` behind some lines. -/
def exit (shell : Shell) (lines : List String) : Ran :=
  .error ⟨1, { shell with output := shell.output ++ lines }, by decide⟩

def cp (shell : Shell) (source target : Path) : Ran :=
  match shell.files source with
  | none => .error ⟨1, shell, by decide⟩
  | some text => .ok { shell with files := Function.update shell.files target (some text) }

/-- `sed -i.tmp`, with the texts that the program prints. -/
def sed (shell : Shell) (program : List Char → List Char) (path : Path) : Ran :=
  match shell.files path with
  | none => .error ⟨2, shell, by decide⟩
  | some text => .ok { shell with
      files := Function.update (Function.update shell.files (.tmp path) (some text)) path
        (some (program text)) }

/-- `rm -f` -/
def rm (shell : Shell) (path : Path) : Shell :=
  { shell with files := Function.update shell.files path none }

end Shell

/-- `grep -q` -/
def grep (pattern : Pattern Char) (text : List Char) : Bool := (bodies '\n' text).any (accepts pattern)

/-- `.` -/
def anyChar : Item Char := .one fun _ => true

/-- `^\s*\*(.got)` -/
def gotPattern (env : Environment) : Pattern Char :=
  [.many env.isSpace] ++ literal "*(".toList ++ [anyChar] ++ literal "got)".toList ++ [anything]

/-- `KEEP(\*(.jcr\*))` -/
def jcrPattern : Pattern Char :=
  [anything] ++ literal "KEEP(*(".toList ++ [anyChar] ++ literal "jcr*))".toList ++ [anything]

/-- `ethosu_trace_log` -/
def traceLogPattern : Pattern Char := [anything] ++ literal "ethosu_trace_log".toList ++ [anything]

/-- The text of the `a` command. -/
def gotLines : List (List Char) :=
  ["    /* GOT must be inside .data so startup code copies it from ROM to RAM */".toList,
   "    *(.got)".toList,
   "    *(.got.plt)".toList]

/-- The program given to `sed`. -/
def insertGot (text : List Char) : List Char := appendAfter '\n' (accepts jcrPattern) gotLines text

/-- Patch 1. -/
def patchLinkerScript (env : Environment) (shell : Shell) : Ran :=
  let shell := shell.echo ("[1/2] Linker script GOT fix: " ++ env.linkerScript)
  match shell.files .linkerScript with
  | none => shell.exit ["  ERROR: Linker script not found. Check your SDK installation."]
  | some text =>
    if grep (gotPattern env) text then .ok (shell.echo "  SKIP: GOT fix already applied.")
    else do
      let shell ← shell.cp .linkerScript (.bak .linkerScript)
      let shell := shell.echo ("  Backup: " ++ env.linkerScript ++ ".bak")
      let shell ← shell.sed insertGot .linkerScript
      let shell := shell.rm (.tmp .linkerScript)
      let shell := shell.echo "  APPLIED: Added *(.got) and *(.got.plt) inside .data section."
      return shell.echo
        "  Without this fix, GOT entries are never initialized -> vtable corruption -> BUS FAULT."

/-- Patch 2. -/
def patchEthosuLog (env : Environment) (shell : Shell) : Ran :=
  let shell := shell.echo ("[2/2] Ethos-U driver log redirect: " ++ env.ethosuLog)
  match shell.files .ethosuLog with
  | none => shell.exit ["  ERROR: ethosu_log.h not found. Check your SDK installation."]
  | some text =>
    if grep traceLogPattern text then .ok (shell.echo "  SKIP: Trace log redirect already applied.")
    else do
      let shell ← shell.cp .ethosuLog (.bak .ethosuLog)
      let shell := shell.echo ("  Backup: " ++ env.ethosuLog ++ ".bak")
      let shell ← shell.cp .scriptDirEthosuLog .ethosuLog
      let shell := shell.echo
        "  APPLIED: LOG_ERR/LOG_WARN/LOG_INFO/LOG_DEBUG now write to remoteproc trace buffer."
      return shell.echo
        "  Without this fix, NPU driver errors are only on UART, invisible via 'cat trace0'."

def applyPatches (env : Environment) (files : SdkFiles) : Ran := do
  let shell : Shell := ⟨files, []⟩
  if env.sdkRootDirPath = "" then
    shell.exit ["ERROR: SdkRootDirPath environment variable is not set.",
      "Set it to the path containing the mcuxsdk/ subdirectory.",
      "  export SdkRootDirPath=$HOME/mcuxsdk_root"]
  else if env.sdkIsDirectory = false then
    shell.exit ["ERROR: SDK not found at " ++ env.sdk,
      "Make sure SdkRootDirPath points to the folder containing mcuxsdk/"]
  else
    let shell := (shell.echo "=== ExecuTorch Runner SDK Patches ===").echo ""
    let shell ← patchLinkerScript env shell
    let shell := shell.echo ""
    let shell ← patchEthosuLog env shell
    let shell := ((shell.echo "").echo "=== All patches applied successfully ===").echo ""
    return (shell.echo "You can now build:").echo "  cmake --preset debug && cmake --build debug"

end RunnerCm33
