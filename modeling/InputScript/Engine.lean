import InputScript.Engine.Worker

/-!
# `InputScript.Engine`: running at most one script at a time

An engine is idle or has one run. Its operations are pure: each gives the engine after it.
The worker makes progress only in `poll`, which runs it for one stretch if it can go on; the
clock moves only as `InputScript.Engine.Clock` says.

Whether a run is active is a flag that a start sets and the report of the run's end clears.
The task of the worker is kept apart from it: a guard watches over the task, so that a crash
is reported as well.

A run is known by its number. Runs end in the order in which they begin, so the list of
outcomes answers for each number whether that run has ended and how.

`isRunning_start` and `stop_of_idle` are the first facts about starting and stopping.
-/

set_option autoImplicit false

namespace InputScript

/-- The state of an engine. -/
structure Engine where
  /-- The delay before the first instruction of every run. -/
  startDelay : Span
  surroundings : Surroundings
  /-- The name of the callback that is told how runs end. -/
  callback : Option String
  stage : Stage
  /-- Whether a run is active. -/
  running : Bool
  /-- The worker of the active run, while its task lasts. -/
  worker : Option Worker
  /-- What whoever waits for a run is told, for the runs that have ended, in order. -/
  outcomes : List Outcome

namespace Engine

/-- An idle engine at time zero. -/
def new (startDelay : Span) (surroundings : Surroundings) : Engine where
  startDelay := startDelay
  surroundings := surroundings
  callback := none
  stage := ⟨0, 0, 0, false, none, 0, []⟩
  running := false
  worker := none
  outcomes := []

/-- Whether a run is active. -/
def isRunning (e : Engine) : Bool :=
  e.running

/-- The index of the instruction being executed, while a run is active. -/
def cursor? (e : Engine) : Option Nat :=
  if e.isRunning then some e.stage.cursor else none

/-- How a run ended, if it has. -/
def outcome? (e : Engine) (run : Nat) : Option Outcome :=
  e.outcomes[run]?

/-- How many runs have been started. -/
def runs (e : Engine) : Nat :=
  e.outcomes.length + if e.isRunning then 1 else 0

/-- The events so far with their times, the earliest first. -/
def events (e : Engine) : List (Nat × Event) :=
  e.stage.history.reverse

/-- Adds an event at the present time. -/
def record (e : Engine) (event : Event) : Engine :=
  { e with stage := e.stage.record event }

/-- Sets the callback, which replaces an earlier one. -/
def onFinished (e : Engine) (callback : String) : Engine :=
  { e with callback := some callback }

/-- Starts a script, if no run is active: the number of the new run, or `none` if the
start was ignored. -/
def start (e : Engine) (script : Script) (lineDelay : Span) : Engine × Option Nat :=
  if e.isRunning then (e.record .startIgnored, none)
  else
    let stage := e.stage.record (.started script.length (lineDelay.millis % Number.bound64))
    ({ e with
        stage := { stage with cancelled := false, transfer := none, cursor := 0 }
        running := true
        worker := some ⟨script, lineDelay, .fresh⟩ },
      some e.outcomes.length)

/-- A start from where nothing can be run, which is refused. -/
def startOutside (e : Engine) : Engine :=
  e.record .startRefused

/-- Asks the active run to stop; nothing happens when there is none. -/
def stop (e : Engine) : Engine :=
  if e.isRunning then { e with stage := e.stage.requestStop } else e

/-- Reports how the active run ended: the engine is idle before the callback is told. -/
def report (e : Engine) (outcome : Outcome) : Engine :=
  let idle := { e.record (.ended outcome) with running := false }
  match idle.callback with
  | none => idle
  | some callback => idle.record (.notified callback outcome idle.isRunning)

/-- What the guard of a worker's task does when the task is left. A guard that is still
armed was left by a crash, which it reports. -/
def dropGuard (e : Engine) (armed : Bool) : Engine :=
  if armed then e.report .crashed else e

/-- Lets the worker's task end with what whoever waits for the run is told. -/
def endTask (e : Engine) (outcome : Outcome) : Engine :=
  { e with worker := none, outcomes := e.outcomes ++ [outcome] }

/-- The engine after a stretch of its worker. The guard is disarmed before an outcome is
reported; a crash leaves it armed. -/
def afterStretch (e : Engine) (w : Worker) : Stage × Progress → Engine
  | (stage, .suspended phase) =>
    { e with stage := stage, worker := some { w with phase := phase } }
  | (stage, .ended outcome) =>
    (({ e with stage := stage }.report outcome).dropGuard false).endTask outcome
  | (stage, .crashed) =>
    ({ e with stage := stage }.dropGuard true).endTask
      (.failed (.aborted (e.surroundings.crashReport e.outcomes.length)))

/-- Whether the worker can go on at the present time. -/
def isReady (e : Engine) : Bool :=
  match e.worker with
  | none => false
  | some w => w.phase.isReady e.stage.cancelled e.stage.now

/-- The time that the worker sleeps for, if it sleeps. -/
def wake? (e : Engine) : Option Nat :=
  e.worker.bind fun w => w.phase.wake?

/-- Runs the worker for one stretch, if it can go on. -/
def poll (e : Engine) : Engine :=
  match e.worker with
  | none => e
  | some w =>
    if w.phase.isReady e.stage.cancelled e.stage.now then
      e.afterStretch w (w.poll e.surroundings e.startDelay e.stage)
    else e

/-- The engine without its past events, on which nothing that happens later depends. -/
def forgetEvents (e : Engine) : Engine :=
  { e with stage := { e.stage with history := [] } }

/-- An engine in words. -/
def describe (e : Engine) : String :=
  "Engine \x7b config: EngineConfig \x7b start_delay: " ++ e.startDelay.display ++
    " \x7d, status: " ++ (if e.isRunning then "Running" else "Idle") ++ ", .. \x7d"

/-- After a start a run is active, whether or not it is a new one. -/
theorem isRunning_start (e : Engine) (script : Script) (lineDelay : Span) :
    (e.start script lineDelay).1.isRunning = true := by
  unfold start
  split
  · assumption
  · rfl

/-- Stopping an idle engine changes nothing. -/
theorem stop_of_idle {e : Engine} (h : e.isRunning = false) : e.stop = e := by
  simp [stop, h]

end Engine

end InputScript
