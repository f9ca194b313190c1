import InputScript.Cli

/-!
# `InputScript.Main`: the program

The outer layer of the command line: it reads the file that a command asks for, sleeps
while a script sleeps, and prints. What is printed and in which order is decided by
`InputScript.Cli` and by the engine.
-/

set_option autoImplicit false

open InputScript InputScript.Cli

/-- The number of a system error, whether or not it is given with a minus sign. -/
def systemNumber (code : UInt32) : Nat :=
  if code.toNat < 0x80000000 then code.toNat else 0x100000000 - code.toNat

/-- The cause that a system error stands for, by its number and its wording. -/
def causeOf (code : UInt32) (details : String) : FileError :=
  match systemNumber code with
  | 2 => .notFound
  | 20 => .notDirectory
  | 21 => .isDirectory
  | 36 => .nameTooLong
  | n => .other (details ++ " (os error " ++ toString n ++ ")")

/-- The cause that a failed system call gives. -/
def systemCause (e : IO.Error) : FileError :=
  match e with
  | .noFileOrDirectory .. => .notFound
  | .inappropriateType _ code details => causeOf code details
  | .permissionDenied _ code details => causeOf code details
  | .resourceExhausted _ code details => causeOf code details
  | .invalidArgument _ code details => causeOf code details
  | .otherError code details => causeOf code details
  | other => .other (toString other)

/-- Reads a text file. -/
def readText (path : String) : IO (Except FileError String) := do
  match ← (IO.FS.readBinFile path).toBaseIO with
  | .error e => return .error (systemCause e)
  | .ok bytes =>
    match String.fromUTF8? bytes with
    | none => return .error .notText
    | some text => return .ok text

/-- Prints records to standard error. -/
def printLog (verbose : Bool) (records : List Log.Record) : IO Unit := do
  for record in records do
    if record.isWritten verbose then IO.eprintln record.line

/-- The longest single sleep in milliseconds. -/
def longestSleep : Nat := 3600000

/-- Runs an engine in real time until its run has ended, printing events as they happen. -/
partial def drive (verbose : Bool) (e : Engine) : IO Engine := do
  printLog verbose (Log.ofEvents e.events)
  let e := e.forgetEvents
  if !e.isRunning then return e
  if e.isReady then drive verbose e.poll
  else
    match e.wake? with
    | none => return e
    | some wake =>
      let millis := min longestSleep (wake - e.stage.now)
      IO.sleep millis.toUInt32
      drive verbose (e.setClock (e.stage.now + millis))

/-- Choices from a seed. -/
def chanceFrom (seed : Nat) (n : Nat) : Nat :=
  (mixHash seed.toUInt64 n.toUInt64).toNat

/-- Runs a script and reports. -/
def runScript (verbose : Bool) (run : Run) : IO Report := do
  printLog verbose [Log.compiled run.script]
  let seed ← IO.rand 0 0xffffffff
  match run.start { Conditions.plain with chance := chanceFrom seed } with
  | (e, none) =>
    printLog verbose (Log.ofEvents e.events)
    return .ofResult [] (.error Run.refusal)
  | (started, some handle) =>
    let e ← drive verbose started
    match e.outcome? handle with
    | some outcome => return .ofResult [] (runResult outcome)
    | none => return ⟨1, "", [], []⟩

/-- Prints a report, but for its log. -/
def printReport (r : Report) : IO UInt32 := do
  IO.print r.output
  for line in r.errors do
    IO.eprintln line
  return r.code.toUInt32

/-- Performs one command. -/
def performCommand (i : Invocation) : IO UInt32 := do
  let content ← match i.task.path? with
    | none => pure (.ok "")
    | some path => readText path
  match i.plan content with
  | .finished report =>
    printLog i.verbose report.log
    printReport report
  | .run run => printReport (← runScript i.verbose run)

/-- The program. -/
def main (args : List String) : IO UInt32 := do
  match Request.parse args with
  | .error e =>
    IO.eprintln ("error: " ++ e.message)
    return 2
  | .ok .help =>
    IO.println usageText
    return 0
  | .ok .version =>
    IO.println versionText
    return 0
  | .ok (.perform i) => performCommand i
