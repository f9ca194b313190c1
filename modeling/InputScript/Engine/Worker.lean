import InputScript.Engine.Event
import InputScript.Script
import InputScript.StopToken

/-!
# `InputScript.Engine.Worker`: running a script up to its next pause

A worker executes the instructions of one script. It runs until it has to wait for the
clock, gives way after a jump, or ends; `Worker.poll` is one such stretch, and `Phase`
says where the worker stands in between.

No stretch needs a bound of its own. Within an instruction the steps of its program get
fewer, and from one instruction to the next the remaining script gets shorter, since
every jump ends the stretch.

What a run shares with its surroundings is a `Stage`: the clock, the stop flag, the
cursor and the history of events. Everything else that a run depends on besides its script
is `Surroundings`: the `Conditions` it runs under and the device that performs effects.
-/

set_option autoImplicit false

namespace InputScript

/-- The conditions under which scripts run. -/
structure Conditions where
  timer : Timer
  /-- Whether a sleep that is due at the very time of a stop counts as a full one, given
  the time. -/
  tie : Nat → Bool
  /-- The number behind each random choice, given how many choices came before. -/
  chance : Nat → Nat
  /-- What whoever waits for a run is told of the crash of its worker, given the number of
  the run. -/
  crashReport : Nat → String

/-- An exact timer, stops that win every tie, and choices that are always the lowest. -/
def Conditions.plain : Conditions :=
  ⟨.exact, fun _ => false, fun _ => 0, fun run => s!"worker {run} crashed"⟩

/-- What a run depends on besides its script. -/
structure Surroundings extends Conditions where
  device : Device

/-- Conditions with a device. -/
def Conditions.on (conditions : Conditions) (device : Device) : Surroundings :=
  ⟨conditions, device⟩

/-- Plain conditions, with a device that performs everything. -/
def Surroundings.plain : Surroundings :=
  Conditions.plain.on fun _ _ => .done

/-- Where a command asks the run to go on. -/
inductive Transfer where
  /-- At a source line, counted from one. -/
  | line (number : Nat)
  /-- Nowhere: the run stops. -/
  | stop
deriving DecidableEq, Repr

/-- What changes while a run makes progress. -/
structure Stage where
  /-- The time in milliseconds. -/
  now : Nat
  /-- How often the device was asked. -/
  calls : Nat
  /-- How many random choices were made. -/
  draws : Nat
  /-- Whether the run is to stop. -/
  cancelled : Bool
  /-- The transfer that the current instruction asked for last. -/
  transfer : Option Transfer
  /-- The index of the instruction that began last. -/
  cursor : Nat
  /-- The events so far with their times, the latest first. -/
  history : List (Nat × Event)

namespace Stage

/-- Adds an event at the present time. -/
def record (s : Stage) (event : Event) : Stage :=
  { s with history := (s.now, event) :: s.history }

/-- Asks the run to stop, from outside the script. -/
def requestStop (s : Stage) : Stage :=
  { s.record .stopRequested with cancelled := true }

/-- What a device replies when it is asked for an effect next. -/
def reply (s : Stage) (device : Device) (effect : Effect) : Reply :=
  device (s.calls + 1) effect

/-- A call of a device: what came of the effect, and then the stop that was asked for
meanwhile, if one was. -/
def call (s : Stage) (device : Device) (effect : Effect) : Stage :=
  let reply := s.reply device effect
  let called := { s with calls := s.calls + 1 }.record (.ofAnswer effect reply.answer)
  if reply.stops then called.requestStop else called

/-- Begins an instruction: no transfer is pending any more. -/
def beginInstruction (s : Stage) (index : Nat) (i : Instruction) : Stage :=
  { s.record (.executing i.line i.name) with cursor := index, transfer := none }

section Call

variable (s : Stage) (device : Device) (effect : Effect)

@[simp] theorem now_call : (s.call device effect).now = s.now := by
  simp only [call]
  split <;> rfl

@[simp] theorem calls_call : (s.call device effect).calls = s.calls + 1 := by
  simp only [call]
  split <;> rfl

@[simp] theorem draws_call : (s.call device effect).draws = s.draws := by
  simp only [call]
  split <;> rfl

@[simp] theorem transfer_call : (s.call device effect).transfer = s.transfer := by
  simp only [call]
  split <;> rfl

@[simp] theorem cursor_call : (s.call device effect).cursor = s.cursor := by
  simp only [call]
  split <;> rfl

/-- A call raises the stop flag if a stop is asked for in it. -/
@[simp] theorem cancelled_call :
    (s.call device effect).cancelled = (s.cancelled || (s.reply device effect).stops) := by
  simp only [call]
  split <;> simp_all [record, requestStop]

/-- A call leaves what came of the effect, and behind it the stop that was asked for. -/
theorem history_call : (s.call device effect).history =
    (if (s.reply device effect).stops then [(s.now, Event.stopRequested)] else []) ++
      (s.now, .ofAnswer effect (s.reply device effect).answer) :: s.history := by
  simp only [call]
  split <;> rfl

variable {s device effect}

/-- A call that just performs its effect. -/
theorem call_of_done (h : s.reply device effect = .done) :
    s.call device effect = { s with calls := s.calls + 1 }.record (.performed effect) := by
  rw [call, h]
  rfl

end Call

end Stage

/-- How a stretch of a program came to a halt. -/
inductive Halt where
  | returned
  | failed (cause : String)
  | crashed
  /-- Asleep until a time, with the rest of the program. -/
  | asleep (wake : Nat) (rest : Bool → Program)

/-- Runs a program until it ends or sleeps. -/
def Program.run (env : Surroundings) : Program → Stage → Stage × Halt
  | .done, s => (s, .returned)
  | .fail cause, s => (s, .failed cause)
  | .crash, s => (s, .crashed)
  | .call effect next failed, s =>
    match (s.reply env.device effect).answer with
    | .done => next.run env (s.call env.device effect)
    | .failed cause _ => (failed cause).run env (s.call env.device effect)
    | .crashed _ => (s.call env.device effect, .crashed)
  | .pause span next, s =>
    match Sleep.begin env.timer s.cancelled span s.now with
    | .over full => (next full).run env s
    | .lasting wake => (s, .asleep wake next)
  | .stopping next, s => (next s.cancelled).run env s
  | .jump line next, s => next.run env { s with transfer := some (.line line) }
  | .stop next, s => next.run env { s with transfer := some .stop, cancelled := true }
  | .choose low high next, s =>
    (next (low + env.chance s.draws % (high - low + 1))).run env
      { s with draws := s.draws + 1 }

/-- Where a worker stands between two stretches. -/
inductive Phase where
  /-- It has not run yet. -/
  | fresh
  /-- In the delay before the first instruction. -/
  | beforeStart (wake : Nat)
  /-- Inside the instruction at an index, with the rest of its program. -/
  | inCommand (index wake : Nat) (rest : Bool → Program)
  /-- It gave way after a jump to a source line. -/
  | afterJump (line : Nat)
  /-- In the delay before the instruction at an index. -/
  | betweenLines (wake next : Nat)

namespace Phase

/-- The time that a worker sleeps for, or `none` when it only gave way. -/
def wake? : Phase → Option Nat
  | fresh => none
  | beforeStart wake => some wake
  | inCommand _ wake _ => some wake
  | afterJump _ => none
  | betweenLines wake _ => some wake

/-- Whether a worker can go on: it gave way, its time has come, or the run is to stop. -/
def isReady (phase : Phase) (cancelled : Bool) (now : Nat) : Bool :=
  match phase.wake? with
  | none => true
  | some wake => cancelled || decide (wake ≤ now)

end Phase

/-- What a stretch leads to. -/
inductive Progress where
  | suspended (phase : Phase)
  | ended (outcome : Outcome)
  /-- The worker crashed before it came to an outcome. -/
  | crashed

/-- The worker of a run. -/
structure Worker where
  script : Script
  lineDelay : Span
  phase : Phase

namespace Worker

/-- Takes the line delay before the instruction at index `next`, then goes on. -/
def delayLine (timer : Timer) (delay : Span) (next : Nat)
    (goOn : Stage → Stage × Progress) (s : Stage) : Stage × Progress :=
  match Sleep.begin timer s.cancelled delay s.now with
  | .over true => goOn s
  | .over false => (s, .ended .stopped)
  | .lasting wake => (s, .suspended (.betweenLines wake next))

/-- What follows a stretch of the instruction at `index`. An instruction that returned
hands over to its transfer, or to the instruction after it; there is a line delay before
that one but none after the last. -/
def settle (timer : Timer) (delay : Span) (index : Nat) (i : Instruction) (isLast : Bool)
    (goOn : Stage → Stage × Progress) (s : Stage) : Halt → Stage × Progress
  | .asleep wake rest => (s, .suspended (.inCommand index wake rest))
  | .failed cause => (s, .ended (.failed (.effect i.name i.line cause)))
  | .crashed => (s, .crashed)
  | .returned =>
    match s.transfer with
    | some (.line target) => (s.record (.jumped i.line target), .suspended (.afterJump target))
    | some .stop => (s, .ended .stopped)
    | none => if isLast then goOn s else delayLine timer delay (index + 1) goOn s

/-- Runs the instructions that begin at `index`. -/
def runFrom (env : Surroundings) (delay : Span) (index : Nat) :
    List Instruction → Stage → Stage × Progress
  | [], s => (s, .ended (if s.cancelled then .stopped else .completed))
  | i :: rest, s =>
    if s.cancelled then (s, .ended .stopped)
    else
      let (after, halt) := i.command.program.run env (s.beginInstruction index i)
      settle env.timer delay index i rest.isEmpty (runFrom env delay (index + 1) rest) after
        halt

/-- Runs the worker's script from the instruction at `index`. -/
def continueAt (w : Worker) (env : Surroundings) (index : Nat) (s : Stage) :
    Stage × Progress :=
  runFrom env w.lineDelay index (w.script.instructions.drop index) s

/-- Resumes the instruction at `index` after a sleep until a time. -/
def resume (w : Worker) (env : Surroundings) (index wake : Nat) (rest : Bool → Program)
    (s : Stage) : Stage × Progress :=
  match w.script.instructions.drop index with
  -- No instruction lies at the index, so the script is at its end.
  | [] => w.continueAt env index s
  | i :: following =>
    let full := Sleep.isFull s.cancelled (env.tie s.now) wake s.now
    let (after, halt) := (rest full).run env s
    settle env.timer w.lineDelay index i following.isEmpty (w.continueAt env (index + 1)) after
      halt

/-- Runs a worker that can go on until it is suspended again or ends. -/
def poll (w : Worker) (env : Surroundings) (startDelay : Span) (s : Stage) :
    Stage × Progress :=
  match w.phase with
  | .fresh =>
    match Sleep.begin env.timer s.cancelled startDelay s.now with
    | .over true => w.continueAt env 0 s
    | .over false => (s, .ended .stopped)
    | .lasting wake => (s, .suspended (.beforeStart wake))
  -- A stop that comes just when a delay is over is seen before the next instruction, so it
  -- does not matter how such a sleep ends.
  | .beforeStart _ => if s.cancelled then (s, .ended .stopped) else w.continueAt env 0 s
  | .inCommand index wake rest => w.resume env index wake rest s
  | .afterJump line =>
    let index := w.script.indexForLine line
    -- A jump behind the last instruction ends the run without a delay.
    if index < w.script.length then
      delayLine env.timer w.lineDelay index (w.continueAt env index) s
    else w.continueAt env index s
  | .betweenLines _ next =>
    if s.cancelled then (s, .ended .stopped) else w.continueAt env next s

end Worker

end InputScript
