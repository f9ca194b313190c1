/-!
# `InputScript.Catalog.Arity`: how many parameters a command takes

Two inclusive bounds. They are kept as they are given, so a lower bound above the upper
one accepts no count at all.
-/

set_option autoImplicit false

namespace InputScript

/-- Inclusive bounds on the number of parameters. -/
structure Arity where
  min : Nat
  max : Nat
deriving DecidableEq, Repr

namespace Arity

/-- Exactly `n` parameters. -/
def exactly (n : Nat) : Arity := ⟨n, n⟩

/-- Whether a number of parameters is within the bounds. -/
def accepts (a : Arity) (count : Nat) : Bool :=
  decide (a.min ≤ count) && decide (count ≤ a.max)

/-- The expectation in words. The noun follows the upper bound. -/
def describe (a : Arity) : String :=
  let noun := if a.max = 1 then "parameter" else "parameters"
  if a.min = a.max then s!"{a.min} {noun}" else s!"{a.min} to {a.max} {noun}"

/-- A count is accepted when it lies between the bounds. -/
theorem accepts_iff (a : Arity) (count : Nat) :
    a.accepts count = true ↔ a.min ≤ count ∧ count ≤ a.max := by
  simp [accepts]

/-- An exact arity accepts its own number only. -/
theorem accepts_exactly (n count : Nat) : (exactly n).accepts count = true ↔ count = n := by
  rw [accepts_iff]
  simp only [exactly]
  omega

example : describe ⟨0, 1⟩ = "0 to 1 parameter" := by decide

end Arity

end InputScript
