import InputScript.Engine

/-!
# `InputScript.Engine.Clock`: letting time pass

The clock moves only when the worker cannot go on, and then to the time that the worker
sleeps for. A script can jump for ever without a pause, so time need not pass: each
function here takes the number of rounds it may use, a round being one stretch of the
worker or one move of the clock. When the rounds are used up it stops where it is.

`runUntil_of_idle` and `finishRun_of_idle` say what is left to do without a run: the clock
is set, or nothing at all.
-/

set_option autoImplicit false

namespace InputScript.Engine

/-- Sets the clock. -/
def setClock (e : Engine) (now : Nat) : Engine :=
  { e with stage := { e.stage with now := now } }

/-- Lets the worker run for a number of stretches, as far as it can go on. -/
def yield (e : Engine) : Nat → Engine
  | 0 => e
  | rounds + 1 => e.poll.yield rounds

/-- Moves the clock to a time, doing all work that is due up to and including it. -/
def runUntil (e : Engine) (time : Nat) : Nat → Engine
  | 0 => e
  | rounds + 1 =>
    if e.isReady then e.poll.runUntil time rounds
    else
      match e.wake? with
      | none => e.setClock time
      | some wake =>
        if wake ≤ time then (e.setClock wake).runUntil time rounds else e.setClock time

/-- Waits for a span while the worker does its work. -/
def advance (e : Engine) (span : Span) (rounds : Nat) : Engine :=
  e.runUntil (e.stage.now + e.surroundings.timer.wait span) rounds

/-- Lets time pass as needed until the active run has ended. -/
def finishRun (e : Engine) : Nat → Engine
  | 0 => e
  | rounds + 1 =>
    if e.isRunning then
      if e.isReady then e.poll.finishRun rounds
      else
        match e.wake? with
        | none => e
        | some wake => (e.setClock wake).finishRun rounds
    else e

/-- Without a worker the clock is set at once. -/
theorem runUntil_of_idle {e : Engine} (h : e.worker = none) (time rounds : Nat) :
    e.runUntil time (rounds + 1) = e.setClock time := by
  simp [runUntil, isReady, wake?, h]

/-- An idle engine has no run to finish. -/
theorem finishRun_of_idle {e : Engine} (h : e.isRunning = false) (rounds : Nat) :
    e.finishRun rounds = e := by
  cases rounds with
  | zero => rfl
  | succ rounds => simp [finishRun, h]

end InputScript.Engine
