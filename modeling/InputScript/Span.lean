import InputScript.Number.Decimal
import InputScript.Text.Blank

/-!
# `InputScript.Span`: spans of time

A span is a whole number of nanoseconds. Scripts write it as milliseconds (`500`,
`500ms`) or as seconds (`1.5s`); seconds are read in double precision and then rounded
to the nearest nanosecond.

The clock of a run ticks once per millisecond, so a span has `ticks`, its milliseconds
rounded up. `ticks_ofMillis` and `millis_ofMillis` say that whole milliseconds are exact,
and `ticks_eq_zero_iff` that only the empty span has no tick.
-/

set_option autoImplicit false

namespace InputScript

/-- A span of time in nanoseconds. -/
structure Span where
  nanos : Nat
deriving DecidableEq, Repr

/-- Why a text is no span. Each cause carries the trimmed text. -/
inductive SpanError where
  /-- A number of milliseconds was announced and is none, or has more than 64 bits. -/
  | milliseconds (text : String)
  /-- A number of seconds was announced and is none, is negative or is too large. -/
  | seconds (text : String)
  /-- Neither a number nor one of the two units. -/
  | form (text : String)
deriving DecidableEq, Repr

/-- The wording of a span error. -/
def SpanError.message : SpanError → String
  | .milliseconds text => s!"invalid milliseconds value: {text}"
  | .seconds text => s!"invalid seconds value: {text}"
  | .form text => s!"duration must be milliseconds or end with 's' or 'ms', got: {text}"

namespace Span

open Number Text

/-- The empty span. -/
def zero : Span := ⟨0⟩

/-- A span of whole milliseconds. -/
def ofMillis (n : Nat) : Span := ⟨n * 1000000⟩

/-- The whole milliseconds in a span. -/
def millis (s : Span) : Nat := s.nanos / 1000000

/-- The milliseconds of a span, rounded up. -/
def ticks (s : Span) : Nat := (s.nanos + 999999) / 1000000

/-- Whether a span is empty. -/
def isZero (s : Span) : Bool := s.nanos == 0

/-- A number of seconds as a span: the numeral in double precision, rounded to the
nearest nanosecond. It is below `2 ^ 64`, and negative only if it rounds to zero. -/
def ofSeconds? (d : Decimal) : Option Span := do
  let f ← d.toDouble? 20
  if f.num = 0 then some zero
  else if d.negative || bound64 * f.den ≤ f.num then none
  else some ⟨roundHalfEven (f.num * 1000000000) f.den⟩

/-- Reads a span, blanks around it and before its unit being ignored. -/
def parse (s : String) : Except SpanError Span :=
  let cs := trim s.toList
  let text := String.ofList cs
  match natural64? text with
  | some n => .ok (ofMillis n)
  | none =>
    match cs.reverse with
    | 's' :: 'm' :: r =>
      match natural64? (String.ofList (trim r.reverse)) with
      | some n => .ok (ofMillis n)
      | none => .error (.milliseconds text)
    | 's' :: r =>
      match (Decimal.parse? (trim r.reverse)).bind ofSeconds? with
      | some span => .ok span
      | none => .error (.seconds text)
    | _ => .error (.form text)

/-- Whole and fractional units, the fraction of `places` digits without its trailing
zeros. -/
def showUnits (whole fraction places : Nat) : String :=
  let digits := Nat.toDigits 10 fraction
  let padded := List.replicate (places - digits.length) '0' ++ digits
  let kept := (padded.reverse.dropWhile (· == '0')).reverse
  toString whole ++ if kept.isEmpty then "" else "." ++ String.ofList kept

/-- A span in the largest unit of which it holds at least one. -/
def display (s : Span) : String :=
  if 1000000000 ≤ s.nanos then
    showUnits (s.nanos / 1000000000) (s.nanos % 1000000000) 9 ++ "s"
  else if 1000000 ≤ s.nanos then
    showUnits (s.nanos / 1000000) (s.nanos % 1000000) 6 ++ "ms"
  else if 1000 ≤ s.nanos then showUnits (s.nanos / 1000) (s.nanos % 1000) 3 ++ "µs"
  else toString s.nanos ++ "ns"

/-- Whole milliseconds are read back exactly. -/
@[simp] theorem millis_ofMillis (n : Nat) : (ofMillis n).millis = n := by
  simp [ofMillis, millis]

/-- A span of whole milliseconds has as many ticks. -/
@[simp] theorem ticks_ofMillis (n : Nat) : (ofMillis n).ticks = n := by
  simp only [ofMillis, ticks]
  omega

/-- Only the empty span has no tick. -/
theorem ticks_eq_zero_iff (s : Span) : s.ticks = 0 ↔ s.isZero = true := by
  simp only [ticks, isZero, beq_iff_eq]
  omega

example : (parse " 1.5 s").toOption = some ⟨1500000000⟩ := by decide +kernel
example : (parse "-1s").toOption = none := by decide +kernel
example : (ofMillis 1500).display = "1.5s" := by decide +kernel

end Span

end InputScript
