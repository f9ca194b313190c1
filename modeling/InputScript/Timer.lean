import InputScript.Span

/-!
# `InputScript.Timer`: how long waiting takes

The clock of a run counts milliseconds. A timer says how many of them go by while a task
waits for a span; it may be coarse, but only the empty span takes no time. The timer
`exact` waits for the milliseconds of a span, rounded up, and `IsExact` says of a timer
that it waits as long for every span.
-/

set_option autoImplicit false

namespace InputScript

/-- What decides how long waiting takes. -/
structure Timer where
  /-- The milliseconds that go by while waiting for a span. -/
  wait : Span → Nat
  /-- Only the empty span is not waited for at all. -/
  wait_eq_zero_iff : ∀ span, wait span = 0 ↔ span.isZero = true

namespace Timer

/-- The timer that waits for the milliseconds of a span, rounded up. -/
def exact : Timer := ⟨Span.ticks, Span.ticks_eq_zero_iff⟩

/-- A timer that waits for the milliseconds of every span, rounded up. -/
def IsExact (timer : Timer) : Prop :=
  ∀ span, timer.wait span = span.ticks

/-- The exact timer is exact. -/
theorem isExact_exact : exact.IsExact := fun _ => rfl

/-- There is one exact timer. -/
theorem IsExact.eq_exact {timer : Timer} (h : timer.IsExact) : timer = exact := by
  obtain ⟨wait, hwait⟩ := timer
  obtain rfl : wait = Span.ticks := funext h
  rfl

/-- Whole milliseconds take as many milliseconds. -/
theorem IsExact.wait_ofMillis {timer : Timer} (h : timer.IsExact) (n : Nat) :
    timer.wait (.ofMillis n) = n := by
  rw [h, Span.ticks_ofMillis]

end Timer

end InputScript
