import InputScript.Effect

/-!
# `InputScript.Device`: what performs effects

A device is asked for one effect at a time and answers. A call that fails or crashes may
have performed its effect all the same, and a stop of the run may be asked for while any
call lasts. What a device does may depend on how often it was asked before.
-/

set_option autoImplicit false

namespace InputScript

/-- How a call of a device ends. -/
inductive Answer where
  /-- The effect was performed. -/
  | done
  /-- The call failed with a cause, before or after the effect was performed. -/
  | failed (cause : String) (performed : Bool)
  /-- The call crashed, before or after the effect was performed. -/
  | crashed (performed : Bool)
deriving DecidableEq, Repr

/-- Whether the effect of a call was performed. -/
def Answer.performed : Answer → Bool
  | done => true
  | failed _ performed => performed
  | crashed performed => performed

/-- What comes of a call of a device. -/
structure Reply where
  answer : Answer
  /-- Whether a stop was asked for before the call ended. -/
  stops : Bool
deriving DecidableEq, Repr

namespace Reply

/-- The effect was performed. -/
def done : Reply := ⟨.done, false⟩

/-- The effect was performed, and a stop was asked for before the call ended. -/
def doneThenStop : Reply := ⟨.done, true⟩

/-- The effect failed and was not performed. -/
def failed (cause : String) : Reply := ⟨.failed cause false, false⟩

/-- The device crashed, and the effect was not performed. -/
def crashed : Reply := ⟨.crashed false, false⟩

end Reply

/-- A device: the reply to each effect, given the number of the call, counted from one. -/
def Device := Nat → Effect → Reply

end InputScript
