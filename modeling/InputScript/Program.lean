import InputScript.Effect
import InputScript.Span

/-!
# `InputScript.Program`: what a command does while it runs

A program is a finite tree of steps. Most steps have one continuation. A call of the
device branches on whether it failed, a pause on whether it lasted its full span, a query
on whether the run is being stopped, and a choice on the number that was drawn.

Nothing in a program refers to a clock, a device or a run: the engine gives the steps
their meaning. `perform` is the call that the built-in commands make: an effect that fails
ends the program there, with the cause of the failure.

`performAll_append` lets long gestures be put together from short ones.
-/

set_option autoImplicit false

namespace InputScript

/-- The steps a command takes when it runs. -/
inductive Program where
  /-- The command returns. -/
  | done
  /-- The command fails with a cause. -/
  | fail (cause : String)
  /-- The command crashes, and the whole run with it. -/
  | crash
  /-- Asks for one effect, then goes on, in one way if the call succeeds and in another,
  knowing the cause, if it fails. -/
  | call (effect : Effect) (next : Program) (failed : String → Program)
  /-- Sleeps, then goes on knowing whether the whole span went by. -/
  | pause (span : Span) (next : Bool → Program)
  /-- Asks whether the run is being stopped. -/
  | stopping (next : Bool → Program)
  /-- Asks that the run continue at a source line. -/
  | jump (line : Nat) (next : Program)
  /-- Asks that the run stop after this command. -/
  | stop (next : Program)
  /-- Draws a number from `low` to `high`. -/
  | choose (low high : Nat) (next : Nat → Program)

namespace Program

/-- One effect, then the rest. A failure of the effect is one of the command. -/
def perform (effect : Effect) (next : Program) : Program :=
  call effect next fail

/-- Several effects in order, then the rest. -/
def performAll (effects : List Effect) (next : Program) : Program :=
  effects.foldr perform next

/-- Performing two lists of effects is performing one after the other. -/
theorem performAll_append (first second : List Effect) (next : Program) :
    performAll (first ++ second) next = performAll first (performAll second next) :=
  List.foldr_append

/-- Sleeps and goes on in the same way whether or not the sleep was cut short. -/
def rest (span : Span) (next : Program) : Program :=
  pause span fun _ => next

end Program

end InputScript
