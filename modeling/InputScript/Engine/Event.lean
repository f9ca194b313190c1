import InputScript.Device

/-!
# `InputScript.Engine.Event`: how runs end and what happens on the way

The outcome of a run, and the events that a run leaves behind in the order in which they
happen. Effects, log entries and callback calls are all events, so that one list answers
what was done, what was logged and who was told.
-/

set_option autoImplicit false

namespace InputScript

/-- Why a run failed. -/
inductive RunError where
  /-- An instruction failed: its command, its line and the cause. -/
  | effect (command : String) (line : Nat) (cause : String)
  /-- The worker ended without an outcome of its own. -/
  | aborted (reason : String)
deriving DecidableEq, Repr

/-- The wording of a run error. -/
def RunError.message : RunError → String
  | .effect command line cause => s!"line {line}: '{command}' failed: {cause}"
  | .aborted reason => s!"script worker aborted: {reason}"

/-- How a run ended. -/
inductive Outcome where
  /-- The run went past the last instruction. -/
  | completed
  /-- The run was stopped, from outside or by the script. -/
  | stopped
  | failed (error : RunError)
deriving DecidableEq, Repr

/-- The outcome that is reported of a run whose worker crashed. -/
def Outcome.crashed : Outcome :=
  .failed (.aborted "worker ended before the script finished")

/-- What can happen to an engine. -/
inductive Event where
  /-- A run began, with so many instructions and a line delay in milliseconds. -/
  | started (instructions lineDelay : Nat)
  /-- A start was ignored because a run was active. -/
  | startIgnored
  /-- A start was refused because there is nothing to run on. -/
  | startRefused
  /-- An instruction began. -/
  | executing (line : Nat) (command : String)
  /-- An effect was performed. -/
  | performed (effect : Effect)
  /-- An effect was asked for and not performed. -/
  | refused (effect : Effect)
  /-- A jump was taken. -/
  | jumped (source target : Nat)
  /-- A stop was asked for from outside the script. -/
  | stopRequested
  /-- A run ended. -/
  | ended (outcome : Outcome)
  /-- A callback was told how a run ended, and saw whether a run is active. -/
  | notified (callback : String) (outcome : Outcome) (running : Bool)
deriving DecidableEq, Repr

/-- The event of a call that a device answers. -/
def Event.ofAnswer (effect : Effect) (answer : Answer) : Event :=
  if answer.performed then .performed effect else .refused effect

/-- The effect that an event performs, if any. -/
def Event.effect? : Event → Option Effect
  | .performed effect => some effect
  | _ => none

/-- The effect that an event is asked for, performed or not, if any. -/
def Event.asked? : Event → Option Effect
  | .performed effect => some effect
  | .refused effect => some effect
  | _ => none

/-- Whatever the answer, a call asked for its effect. -/
@[simp] theorem Event.asked?_ofAnswer (effect : Effect) (answer : Answer) :
    (Event.ofAnswer effect answer).asked? = some effect := by
  unfold ofAnswer
  split <;> rfl

/-- A call performs its effect if the answer says so. -/
@[simp] theorem Event.effect?_ofAnswer (effect : Effect) (answer : Answer) :
    (Event.ofAnswer effect answer).effect? = if answer.performed then some effect else none := by
  unfold ofAnswer
  split <;> rfl

end InputScript
