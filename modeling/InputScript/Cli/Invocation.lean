import InputScript.Cli.Arguments
import InputScript.Number.Integer

/-!
# `InputScript.Cli.Invocation`: what the program is asked to do

There are five commands. `run` runs a script file and `run-saved` a script from the
settings, `check` only compiles one, `tokens` shows how one is classified and `commands`
lists the commands that scripts can use. The switch for a verbose log may stand before or
after the command.
-/

set_option autoImplicit false

namespace InputScript.Cli

/-- One of the commands with what it is given. -/
inductive Task where
  /-- Delays are in milliseconds. -/
  | run (path : String) (lineDelay startDelay : Nat)
  | runSaved (name settings : String)
  | check (path : String)
  | tokens (path : String)
  | commands
deriving DecidableEq, Repr

/-- The file that a command reads, if any. -/
def Task.path? : Task → Option String
  | run path _ _ => some path
  | runSaved _ settings => some settings
  | check path => some path
  | tokens path => some path
  | commands => none

/-- A command and the amount of logging. -/
structure Invocation where
  verbose : Bool
  task : Task
deriving DecidableEq, Repr

/-- What arguments ask for. -/
inductive Request where
  | help
  | version
  | perform (invocation : Invocation)
deriving DecidableEq, Repr

def verboseSwitch : Switch := ⟨"verbose", some 'v', false⟩
def helpSwitch : Switch := ⟨"help", some 'h', false⟩
def versionSwitch : Switch := ⟨"version", some 'V', false⟩
def lineDelaySwitch : Switch := ⟨"line-delay", some 'l', true⟩
def startDelaySwitch : Switch := ⟨"start-delay", some 's', true⟩
def settingsSwitch : Switch := ⟨"settings", none, true⟩

/-- The settings file that is used when none is named. -/
def defaultSettings : String := "settings.json"

/-- The only operand of a command. -/
def operand (a : Arguments) (name : String) : Except UsageError String :=
  match a.operands with
  | [] => .error (.missingOperand name)
  | [value] => .ok value
  | _ :: extra :: _ => .error (.unexpectedOperand extra)

/-- The path that is the only operand of a command. It must not be empty. -/
def pathOperand (a : Arguments) : Except UsageError String :=
  match operand a "SCRIPT" with
  | .error e => .error e
  | .ok path => if path.isEmpty then .error (.missingOperand "SCRIPT") else .ok path

/-- The milliseconds that an option gives, zero if it is not given. -/
def millis (a : Arguments) (option : String) : Except UsageError Nat :=
  match a.value? option with
  | none => .ok 0
  | some text =>
    match Number.natural64? text with
    | none => .error (.invalidValue option text)
    | some n => .ok n

/-- The task of `run`. -/
def runTask (a : Arguments) : Except UsageError Task :=
  match pathOperand a, millis a "line-delay", millis a "start-delay" with
  | .error e, _, _ => .error e
  | _, .error e, _ => .error e
  | _, _, .error e => .error e
  | .ok path, .ok lineDelay, .ok startDelay => .ok (.run path lineDelay startDelay)

/-- The task of `run-saved`. -/
def runSavedTask (a : Arguments) : Except UsageError Task :=
  match operand a "NAME" with
  | .error e => .error e
  | .ok name =>
    match a.value? "settings" with
    | none => .ok (.runSaved name defaultSettings)
    | some "" => .error (.missingValue "settings")
    | some path => .ok (.runSaved name path)

/-- The task of `commands`, which takes no operand. -/
def commandsTask (a : Arguments) : Except UsageError Task :=
  match a.operands with
  | [] => .ok .commands
  | extra :: _ => .error (.unexpectedOperand extra)

/-- A command: its name, its options and what it makes of its arguments. -/
structure Command where
  name : String
  switches : List Switch
  task : Arguments → Except UsageError Task

/-- The commands. -/
def commands : List Command := [
  ⟨"run", [lineDelaySwitch, startDelaySwitch], runTask⟩,
  ⟨"run-saved", [settingsSwitch], runSavedTask⟩,
  ⟨"check", [], fun a => (pathOperand a).map .check⟩,
  ⟨"tokens", [], fun a => (pathOperand a).map .tokens⟩,
  ⟨"commands", [], commandsTask⟩]

/-- Reads the arguments after the name of a command. -/
def Command.parse (c : Command) (verbose : Bool) (args : List String) :
    Except UsageError Request :=
  match Arguments.read (verboseSwitch :: helpSwitch :: c.switches) args with
  | .error e => .error e
  | .ok a =>
    if a.has "help" then .ok .help
    else
      match c.task a with
      | .error e => .error e
      | .ok task => .ok (.perform ⟨verbose || a.has "verbose", task⟩)

/-- Reads the arguments of the program: options, the name of a command, and what the
command is given. -/
def Request.parse (args : List String) : Except UsageError Request :=
  let switches := [verboseSwitch, helpSwitch, versionSwitch]
  match Arguments.read switches (args.takeWhile isOption) with
  | .error e => .error e
  | .ok a =>
    if a.has "help" then .ok .help
    else if a.has "version" then .ok .version
    else
      match args.dropWhile isOption with
      | [] => .error .missingCommand
      | "help" :: _ => .ok .help
      | name :: rest =>
        match commands.find? (·.name == name) with
        | none => .error (.unknownCommand name)
        | some c => c.parse (a.has "verbose") rest

example : (Request.parse ["-v", "run", "a", "-l5", "--start-delay=7"]).toOption =
    some (.perform ⟨true, .run "a" 5 7⟩) := by decide +kernel

end InputScript.Cli
