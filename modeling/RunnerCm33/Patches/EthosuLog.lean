import RunnerCm33.Lib.LinePatterns
import RunnerCm33.Lib.TextLines

/-! The header `patches/ethosu_log.h`, which `apply_patches.sh` copies over the driver's,
and what it means for a header to redirect the log macros. -/

namespace RunnerCm33

open RunnerCm33.Lines RunnerCm33.LinePatterns

def isBlank (char : Char) : Bool := char = ' ' || char = '\t' || char = '\r'

/-- What the comment at the start of the header says. -/
structure LeadingComment where
  text : List Char
  closed : ¬['*', '/'] <:+: text
  unspliced : '\\' ∉ text

def ethosuLogLines : List String :=
  ["",
   "#ifndef ETHOSU_LOG_H",
   "#define ETHOSU_LOG_H",
   "",
   "/******************************************************************************",
   " * Includes",
   " ******************************************************************************/",
   "",
   "#include <stdio.h>",
   "#include <string.h>",
   "",
   "#include \"fsl_debug_console.h\"",
   "",
   "/******************************************************************************",
   " * Defines",
   " ******************************************************************************/",
   "",
   "// Log severity levels",
   "#define ETHOSU_LOG_ERR 0",
   "#define ETHOSU_LOG_WARN 1",
   "#define ETHOSU_LOG_INFO 2",
   "#define ETHOSU_LOG_DEBUG 3",
   "",
   "#define ETHOSU_LOG_SEVERITY ETHOSU_LOG_INFO",
   "",
   "// Define default log severity",
   "#ifndef ETHOSU_LOG_SEVERITY",
   "#define ETHOSU_LOG_SEVERITY ETHOSU_LOG_WARN",
   "#endif",
   "",
   "// Trace buffer hook - declared in arm_executor_runner.cpp",
   "#ifdef __cplusplus",
   "extern \"C\" \x7b",
   "#endif",
   "extern volatile char rsc_trace_buf[];",
   "extern volatile unsigned int trace_idx;",
   "void ethosu_trace_log(const char* fmt, ...);",
   "#ifdef __cplusplus",
   "\x7d",
   "#endif",
   "",
   "// Log formatting - redirect to trace buffer via ethosu_trace_log",
   "",
   "#define LOG(f, ...) PRINTF(f, ##__VA_ARGS__)",
   "",
   "#if ETHOSU_LOG_SEVERITY >= ETHOSU_LOG_ERR",
   "#define LOG_ERR(f, ...) ethosu_trace_log(\"E: \" f \" (%s:%d)\\n\", ##__VA_ARGS__, strrchr(\"/\" __FILE__, '/') + 1, __LINE__)",
   "#else",
   "#define LOG_ERR(f, ...)",
   "#endif",
   "",
   "#if ETHOSU_LOG_SEVERITY >= ETHOSU_LOG_WARN",
   "#define LOG_WARN(f, ...) ethosu_trace_log(\"W: \" f \"\\n\", ##__VA_ARGS__)",
   "#else",
   "#define LOG_WARN(f, ...)",
   "#endif",
   "",
   "#if ETHOSU_LOG_SEVERITY >= ETHOSU_LOG_INFO",
   "#define LOG_INFO(f, ...) ethosu_trace_log(\"I: \" f \"\\n\", ##__VA_ARGS__)",
   "#else",
   "#define LOG_INFO(f, ...)",
   "#endif",
   "",
   "#if ETHOSU_LOG_SEVERITY >= ETHOSU_LOG_DEBUG",
   "#define LOG_DEBUG(f, ...) ethosu_trace_log(\"D: %s(): \" f \"\\n\", __FUNCTION__, ##__VA_ARGS__)",
   "#else",
   "#define LOG_DEBUG(f, ...)",
   "#endif",
   "",
   "#endif"]

/-- `patches/ethosu_log.h`. -/
def LeadingComment.ethosuLog (comment : LeadingComment) : List Char :=
  '/' :: '*' :: (comment.text ++ '*' :: '/' :: '\n' :: joinLines '\n' (ethosuLogLines.map String.toList))

/-! ### Reading a header -/

/-- A line that ends in a backslash goes on in the next one. -/
def splice : List Char → List Char
  | '\\' :: '\n' :: rest => splice rest
  | char :: rest => char :: splice rest
  | [] => []

def isQuote (char : Char) : Bool := char = .ofNat 34 || char = .ofNat 39

/-- What the next character is part of. -/
inductive HeaderPart where
  | code
  | quoted (quote : Char)
  | lineComment
  | blockComment
deriving DecidableEq, Repr

/-- A comment is read as one blank, or as nothing up to the end of its line. -/
def withoutComments : HeaderPart → List Char → List Char
  | _, [] => []
  | .code, '/' :: '*' :: rest => ' ' :: withoutComments .blockComment rest
  | .code, '/' :: '/' :: rest => withoutComments .lineComment rest
  | .code, char :: rest => char :: withoutComments (if isQuote char then .quoted char else .code) rest
  | .quoted quote, '\\' :: char :: rest => '\\' :: char :: withoutComments (.quoted quote) rest
  | .quoted quote, char :: rest =>
    char :: withoutComments (if char = quote || char = '\n' then .code else .quoted quote) rest
  | .lineComment, char :: rest =>
    if char = '\n' then char :: withoutComments .code rest else withoutComments .lineComment rest
  | .blockComment, '*' :: '/' :: rest => withoutComments .code rest
  | .blockComment, _ :: rest => withoutComments .blockComment rest

/-- The lines in which the preprocessor looks for directives. -/
def sourceLines (header : List Char) : List (List Char) := bodies '\n' (withoutComments .code (splice header))

def logMacros : List String := ["LOG_ERR", "LOG_WARN", "LOG_INFO", "LOG_DEBUG"]

def isIdentifier (char : Char) : Bool := char.isAlphanum || char = '_'

/-- A directive about a macro, and what may stand behind the macro's name. -/
def directivePattern (directive name : String) : Pattern Char :=
  [.many isBlank] ++ literal ['#'] ++ [.many isBlank] ++ literal directive.toList ++
    [.one isBlank, .many isBlank] ++ literal name.toList

/-- A pattern, with the end of the line or of an identifier behind it. -/
def acceptsWord (pattern : Pattern Char) (line : List Char) : Bool :=
  accepts pattern line || accepts (pattern ++ [.one fun char => !isIdentifier char, anything]) line

def defines (name : String) (line : List Char) : Bool := acceptsWord (directivePattern "define" name) line

def undefines (name : String) (line : List Char) : Bool := acceptsWord (directivePattern "undef" name) line

/-- `ethosu_trace_log` stands in the line, in front of any string. -/
def namesTraceLog (line : List Char) : Bool :=
  acceptsWord ([.many (· ≠ .ofNat 34), .one fun char => !isIdentifier char] ++
    literal "ethosu_trace_log".toList) line

/-- A definition by nothing, for messages below the severity. -/
def discards (name : String) (line : List Char) : Bool :=
  accepts (directivePattern "define" name ++ literal ['('] ++ [.many (· ≠ ')')] ++ literal [')'] ++
    [.many isBlank]) line

/-- Every log macro is defined by `ethosu_trace_log`, in no other way than that or by
nothing, and never undefined. Conditions in the header are not evaluated. -/
def RedirectsLogs (header : List Char) : Prop :=
  ∀ name ∈ logMacros,
    (∃ line ∈ sourceLines header, defines name line ∧ namesTraceLog line) ∧
      (∀ line ∈ sourceLines header, defines name line → namesTraceLog line ∨ discards name line) ∧
      ∀ line ∈ sourceLines header, ¬undefines name line

instance (header : List Char) : Decidable (RedirectsLogs header) :=
  inferInstanceAs (Decidable (∀ name ∈ logMacros, _))

variable {comment : LeadingComment} {text rest line : List Char}

private theorem splice_append (unspliced : '\\' ∉ text) : splice (text ++ rest) = text ++ splice rest := by
  induction text with
  | nil => rfl
  | cons char text ih =>
    rw [List.mem_cons, not_or] at unspliced
    rw [List.cons_append, splice, ih unspliced.2, List.cons_append]
    rintro behind rfl
    exact absurd rfl unspliced.1

private theorem withoutComments_block (closed : ¬['*', '/'] <:+: text) :
    withoutComments .blockComment (text ++ '*' :: '/' :: rest) = withoutComments .code rest := by
  induction text with
  | nil => rfl
  | cons char text ih =>
    have inside : ¬['*', '/'] <:+: text := fun found => closed (found.trans (List.suffix_cons ..).isInfix)
    rw [List.cons_append, withoutComments, ih inside]
    rintro behind rfl split
    match text, split with
    | [], split => simp at split
    | second :: text, split =>
      rw [List.cons_append, List.cons.injEq] at split
      refine closed ⟨[], text, ?_⟩
      rw [split.1]
      rfl

private theorem ethosuLogLines_clean : ∀ line ∈ ethosuLogLines.map String.toList, '\n' ∉ line := by
  simp only [ethosuLogLines, List.map_cons, List.map_nil]
  repeat rw [String.toList_ofList]
  decide +kernel

/-- The lines of the repository behind the comment are lines of the header. -/
theorem mem_ethosuLog (member : line ∈ ethosuLogLines.map String.toList) :
    line ∈ bodies '\n' comment.ethosuLog := by
  obtain ⟨before, split⟩ := bodies_behind ('/' :: '*' :: (comment.text ++ ['*', '/']))
    (joinLines '\n' (ethosuLogLines.map String.toList))
  have header : comment.ethosuLog = '/' :: '*' :: (comment.text ++ ['*', '/']) ++
      '\n' :: joinLines '\n' (ethosuLogLines.map String.toList) := by
    simp [LeadingComment.ethosuLog]
  rw [header, split, ← List.append_nil (joinLines ..), bodies_joinLines ethosuLogLines_clean]
  exact List.mem_append_right _ (List.mem_append_left _ member)

/-- Comments and continued lines do not reach behind the leading comment. -/
theorem sourceLines_ethosuLog :
    sourceLines comment.ethosuLog = bodies '\n' (' ' :: '\n' :: withoutComments .code
      (splice (joinLines '\n' (ethosuLogLines.map String.toList)))) := by
  have spliced : splice comment.ethosuLog = '/' :: '*' :: (comment.text ++ '*' :: '/' :: '\n' ::
      splice (joinLines '\n' (ethosuLogLines.map String.toList))) := by
    simp [LeadingComment.ethosuLog, splice, splice_append comment.unspliced]
  rw [sourceLines, spliced, withoutComments, withoutComments_block comment.closed]
  simp [withoutComments, isQuote]

theorem LeadingComment.ethosuLog_redirects (comment : LeadingComment) : RedirectsLogs comment.ethosuLog := by
  simp only [RedirectsLogs, sourceLines_ethosuLog, ethosuLogLines, List.map_cons, List.map_nil]
  repeat rw [String.toList_ofList]
  decide +kernel

-- macros without parameters, and with a body of two lines
example : RedirectsLogs
    ("#define LOG_ERR ethosu_trace_log\n#define LOG_WARN ethosu_trace_log // warnings\n".toList ++
      "#define LOG_INFO(f, ...) do \x7b \\\n  ethosu_trace_log(f); \x7d while (0)\n".toList ++
      "# define LOG_DEBUG(f)\n#define LOG_DEBUG ethosu_trace_log\n".toList) := by decide +kernel

end RunnerCm33
