import InputScript.Log
import InputScript.Text.Lines

/-!
# `InputScript.Cli.Report`: how the program reports

A failure has a message and causes, each the reason for what stands before it. It is
shown with the causes indented below the message, and numbered if there are several; a
cause of more than one line keeps its indentation.

A report is all that a finished command leaves: the exit code, the text of standard
output, the log, and the lines of standard error that are not log lines.
-/

set_option autoImplicit false

namespace InputScript.Cli

/-- Why a command failed. -/
structure Failure where
  message : String
  /-- The reason for the message, the reason for that, and so on. -/
  causes : List String
deriving DecidableEq, Repr

/-- Blanks in front of a text, up to a width in characters. -/
def alignRight (width : Nat) (s : String) : String :=
  String.ofList (List.replicate (width - s.length) ' ') ++ s

/-- Blanks behind a text, up to a width in characters. -/
def alignLeft (width : Nat) (s : String) : String :=
  s ++ String.ofList (List.replicate (width - s.length) ' ')

namespace Failure

/-- A cause with `first` in front, and `rest` in front of each further line. -/
def indented (first rest cause : String) : String :=
  let lines := (cause.toList.splitOn '\n').map String.ofList
  first ++ ("\n" ++ rest).intercalate lines

/-- The causes from a number on, each on a line of its own. -/
def numbered (n : Nat) : List String → List String
  | [] => []
  | cause :: rest =>
    indented (alignRight 5 (toString n) ++ ": ") "       " cause :: numbered (n + 1) rest

/-- The causes below the message. -/
def causeLines : List String → List String
  | [cause] => [indented "    " "    " cause]
  | causes => numbered 0 causes

/-- A failure as it is shown. -/
def text (f : Failure) : String :=
  "Error: " ++ f.message ++
    if f.causes.isEmpty then ""
    else "\n\nCaused by:\n" ++ "\n".intercalate (causeLines f.causes)

/-- The lines of a failure. -/
def lines (f : Failure) : List String :=
  Text.lines f.text

end Failure

/-- What a finished command leaves. -/
structure Report where
  code : Nat
  output : String
  log : List Log.Record
  errors : List String
deriving DecidableEq, Repr

/-- The report of a result: the output of a success, or a failure. -/
def Report.ofResult (log : List Log.Record) : Except Failure String → Report
  | .ok output => ⟨0, output, log, []⟩
  | .error failure => ⟨1, "", log, failure.lines⟩

/-- The exit code tells success from failure. -/
theorem Report.code_ofResult_eq_zero_iff (log : List Log.Record)
    (result : Except Failure String) :
    (Report.ofResult log result).code = 0 ↔ ∃ output, result = .ok output := by
  cases result <;> simp [ofResult]

example : Failure.text ⟨"a", ["b\nc"]⟩ = "Error: a\n\nCaused by:\n    b\n    c" := by
  decide +kernel
example : Failure.text ⟨"a", ["b", "c"]⟩ = "Error: a\n\nCaused by:\n    0: b\n    1: c" := by
  decide +kernel

end InputScript.Cli
