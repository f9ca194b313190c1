import InputScript.Cli.Invocation
import InputScript.Cli.Report
import InputScript.Engine.Operation
import InputScript.Script.Compile
import InputScript.Settings
import InputScript.Token

/-!
# `InputScript.Cli`: the commands of the program

A command reads at most one file. Given what reading that file yields, it either comes to
a result at once or asks for a script to be run. A run goes through an engine whose device
performs every effect by logging it, and it succeeds unless the engine refuses to start or
the run fails.

`Invocation.plan` is the part before a run and `Invocation.perform` the whole command, a
run being given a number of rounds in which it has to end.

Left out are the stop that is asked for from the keyboard, a filter for the log that is set
in the environment, and the longer help that the reader of arguments prints.
-/

set_option autoImplicit false

namespace InputScript.Cli

/-- The name and the version of the program. -/
def versionText : String := "automate 0.1.0"

/-- How the program is used. -/
def usageText : String :=
  "Compile and run keyboard/mouse macro scripts\n\n" ++
  "Usage: automate [OPTIONS] <COMMAND>\n\n" ++
  "Commands:\n" ++
  "  run        Run a script file (effects are logged, not sent to the OS)\n" ++
  "  run-saved  Run a script saved in a settings file\n" ++
  "  check      Compile a script without running it\n" ++
  "  tokens     Print the classified tokens of a script\n" ++
  "  commands   List the available commands\n" ++
  "  help       Print this message\n\n" ++
  "Options:\n" ++
  "  -v, --verbose  Log every executed instruction\n" ++
  "  -h, --help     Print help\n" ++
  "  -V, --version  Print version"

/-! ### Failures -/

/-- The causes that a compile error gives for a failure. -/
def compileCauses (e : CompileError) : List String :=
  match e with
  | .unreadable _ cause => [e.message, cause.message]
  | _ => [e.message]

/-- The failure of settings that cannot be loaded. -/
def settingsFailure (e : SettingsError) : Failure :=
  match e with
  | .file _ cause => ⟨e.message, [cause.message]⟩
  | .content _ fault => ⟨e.message, [fault.message]⟩

/-- The causes that a run error gives for a failure. -/
def runCauses (e : RunError) : List String :=
  match e with
  | .effect _ _ cause => [e.message, cause]
  | .aborted _ => [e.message]

/-! ### Plans -/

/-- A script to be run and its delays. -/
structure Run where
  script : Script
  lineDelay : Span
  startDelay : Span

/-- What a command comes to before any script runs. -/
inductive Plan where
  | finished (report : Report)
  | run (job : Run)

/-- A plan from a compiled script, or the failure of a script that does not compile. -/
def Plan.ofScript (context : String) (next : Script → Plan) :
    Except CompileError Script → Plan
  | .error e => .finished (.ofResult [] (.error ⟨context, compileCauses e⟩))
  | .ok script => next script

/-- The message for a script file that does not compile. -/
def fileContext (path : String) : String :=
  s!"Failed to compile script: {path}"

/-- The line that `check` prints. -/
def checkLine (path : String) (script : Script) : String :=
  path ++ ": ok (" ++ toString script.length ++ " instructions, " ++
    toString script.lineCount ++ " lines)\n"

/-- The line that `tokens` prints for a token. -/
def tokenLine (t : Token) : String :=
  alignRight 6 (toString t.start) ++ "  " ++ t.kind.name ++ " " ++ t.text ++ "\n"

/-- The line that `commands` prints for a command. -/
def commandLine (d : Descriptor) : String :=
  alignLeft 14 d.name ++ " " ++ d.usage ++ "\n"

/-- The plan of a saved script. -/
def savedPlan (name : String) (settings : Settings) : Plan :=
  match settings.find? name with
  | none => .finished (.ofResult [] (.error ⟨s!"No saved script named '{name}'", []⟩))
  | some saved =>
    Plan.ofScript s!"Failed to compile saved script '{saved.name}'"
      (fun script => .run ⟨script, saved.lineDelay, settings.startDelay⟩)
      (Catalog.builtin.compileText saved.script)

/-- What a task comes to, given what reading its file yields. -/
def Task.plan (task : Task) (content : Except FileError String) : Plan :=
  match task with
  | .run path lineDelay startDelay =>
    Plan.ofScript (fileContext path)
      (fun script => .run ⟨script, .ofMillis lineDelay, .ofMillis startDelay⟩)
      (Catalog.compileFile path content)
  | .runSaved name path =>
    match Settings.load path content with
    | .error e => .finished (.ofResult [] (.error (settingsFailure e)))
    | .ok settings => savedPlan name settings
  | .check path =>
    Plan.ofScript (fileContext path)
      (fun script => .finished (.ofResult [Log.compiled script] (.ok (checkLine path script))))
      (Catalog.compileFile path content)
  | .tokens path =>
    match content with
    | .error cause =>
      .finished (.ofResult []
        (.error ⟨s!"Failed to read script file: {path}", [cause.message]⟩))
    | .ok text =>
      .finished (.ofResult []
        (.ok (String.join ((Token.tokenize Token.builtinKeywords text).map tokenLine))))
  | .commands =>
    .finished (.ofResult []
      (.ok (String.join (Catalog.builtin.entries.map commandLine))))

/-! ### Runs -/

/-- The result of a run. -/
def runResult : Outcome → Except Failure String
  | .failed e => .error ⟨"Failed to execute script", runCauses e⟩
  | _ => .ok ""

namespace Run

/-- The failure of a run that an engine does not take. -/
def refusal : Failure := ⟨"Engine refused to start", []⟩

/-- An engine for the run, whose device logs effects. -/
def engine (run : Run) (conditions : Conditions) : Engine :=
  Engine.new run.startDelay (conditions.on Log.device)

/-- Starts the run on its engine: the engine after it, and the number of the run unless the
start was refused. -/
def start (run : Run) (conditions : Conditions) : Engine × Option Nat :=
  (run.engine conditions).start run.script run.lineDelay

/-- The records of a run up to where the engine is. -/
def log (run : Run) (e : Engine) : List Log.Record :=
  Log.compiled run.script :: Log.ofEvents e.events

/-- The report of a run, if it ends within a number of rounds. -/
def report? (run : Run) (conditions : Conditions) (rounds : Nat) : Option Report :=
  match run.start conditions with
  | (e, none) => some (.ofResult (run.log e) (.error refusal))
  | (e, some handle) =>
    let (after, outcome) := e.waitFor handle rounds
    outcome.map fun outcome => .ofResult (run.log after) (runResult outcome)

end Run

/-- The report without the records that are not written. -/
def Report.visible (verbose : Bool) (r : Report) : Report :=
  { r with log := r.log.filter (Log.Record.isWritten verbose) }

namespace Invocation

/-- What a command comes to, given what reading its file yields. -/
def plan (i : Invocation) (content : Except FileError String) : Plan :=
  i.task.plan content

/-- The report of a whole command, if a run that it asks for ends within a number of
rounds. -/
def perform (i : Invocation) (conditions : Conditions) (rounds : Nat)
    (read : String → Except FileError String) : Option Report :=
  let content := match i.task.path? with
    | none => .ok ""
    | some path => read path
  match i.plan content with
  | .finished report => some (report.visible i.verbose)
  | .run run => (run.report? conditions rounds).map (Report.visible i.verbose)

end Invocation

/-- The report of the whole program on its arguments. -/
def perform (args : List String) (conditions : Conditions) (rounds : Nat)
    (read : String → Except FileError String) : Option Report :=
  match Request.parse args with
  | .error e => some ⟨2, "", [], ["error: " ++ e.message]⟩
  | .ok .help => some ⟨0, usageText ++ "\n", [], []⟩
  | .ok .version => some ⟨0, versionText ++ "\n", [], []⟩
  | .ok (.perform i) => i.perform conditions rounds read

end InputScript.Cli
