import InputScript.Engine.Clock

/-!
# `InputScript.Engine.Operation`: what can be done with an engine

A history of an engine is a list of operations, performed one after the other. Between two
operations nothing happens: the worker makes progress only in those that let time pass, that
give way to it, or that wait for a run.

`performAll_append` takes a history apart.
-/

set_option autoImplicit false

namespace InputScript

/-- What can be done with an engine. -/
inductive Operation where
  /-- Starts a script with a line delay. -/
  | start (script : Script) (lineDelay : Span)
  /-- Starts a script from where nothing can be run. -/
  | startOutside
  | stop
  /-- Sets the callback. -/
  | onFinished (callback : String)
  /-- Lets a span of time pass, within a number of rounds. -/
  | advance (span : Span) (rounds : Nat)
  /-- Gives way to the worker for a number of stretches. -/
  | yield (rounds : Nat)
  /-- Waits for a run to end, within a number of rounds. -/
  | wait (run rounds : Nat)

namespace Engine

/-- Waits for a run to end: the engine after it, and how the run ended. There is no answer
for a run that was never started, or when the rounds are used up. -/
def waitFor (e : Engine) (run rounds : Nat) : Engine × Option Outcome :=
  let after := if run < e.runs && (e.outcome? run).isNone then e.finishRun rounds else e
  (after, after.outcome? run)

/-- Performs one operation. -/
def perform (e : Engine) : Operation → Engine
  | .start script lineDelay => (e.start script lineDelay).1
  | .startOutside => e.startOutside
  | .stop => e.stop
  | .onFinished callback => e.onFinished callback
  | .advance span rounds => e.advance span rounds
  | .yield rounds => e.yield rounds
  | .wait run rounds => (e.waitFor run rounds).1

/-- Performs operations one after the other. -/
def performAll (e : Engine) (ops : List Operation) : Engine :=
  ops.foldl perform e

/-- Performing two histories is performing one after the other. -/
theorem performAll_append (e : Engine) (first second : List Operation) :
    e.performAll (first ++ second) = (e.performAll first).performAll second :=
  List.foldl_append

end Engine

end InputScript
