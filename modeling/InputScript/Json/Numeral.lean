import InputScript.Json.Fault
import InputScript.Number.Integer
import InputScript.Number.Nearest

/-!
# `InputScript.Json.Numeral`: JSON numbers

A JSON number has an optional minus sign, digits without a superfluous zero in front,
optional places after a point, and an optional power of ten.

Only whole numbers are ever used, so a numeral keeps its digits and no value is computed
for one with places or a power. Such a numeral still has to be in the range of double
precision. `Numeral.exceedsDouble` tests that: as many leading digits as fit into 64 bits
and the power of ten that remains are each rounded to double precision, and their product
must not round to infinity.

`length_lt_of_read` is why reading ends.
-/

set_option autoImplicit false

namespace InputScript.Json

open Number

/-- A number as it is written. -/
structure Numeral where
  negative : Bool
  whole : List Char
  /-- The digits after the point; none if there is no point. -/
  places : List Char
  /-- Whether the power of ten is negative, and its digits. -/
  power : Option (Bool × List Char)
deriving DecidableEq, Repr

namespace Numeral

/-! ### Range -/

/-- Takes digits into a number as long as it stays below a bound: the number, and the
digits that are left over. -/
def absorb (bound : Nat) : Nat → List Char → Nat × List Char
  | n, [] => (n, [])
  | n, d :: ds =>
    if 10 * n + digit d < bound then absorb bound (10 * n + digit d) ds else (n, d :: ds)

/-- The leading digits that fit into 64 bits, and the power of ten to go with them if the
numeral names none. -/
def significand (x : Numeral) : Nat × Int :=
  let (high, unread) := absorb bound64 0 x.whole
  let (low, dropped) := absorb bound64 high x.places
  (low, (unread.length : Int) - (x.places.length - dropped.length : Nat))

/-- Whether `n` times ten to the power `e`, both factors in double precision, is so large
that it rounds to infinity. -/
def overflows (n : Nat) (e : Int) : Bool :=
  if n = 0 || e < 0 then false
  else if 308 < e then true
  else
    -- Both factors are below `2 ^ 1024` here, since the power is at most `10 ^ 308`.
    let factor := Fraction.nearestDouble ⟨n, 1⟩
    let power := Fraction.nearestDouble ⟨Nat.pow 10 e.toNat, 1⟩
    decide ((1 <<< 1024 - 1 <<< 970) * (factor.den * power.den) ≤ factor.num * power.num)

/-- Whether a numeral is too large for double precision. A power of ten has to fit into
32 bits unless it is negative or there is nothing to multiply. -/
def exceedsDouble (x : Numeral) : Bool :=
  let (n, e) := x.significand
  match x.power with
  | none => overflows n e
  | some (negative, ds) =>
    let p := value ds
    if p < 0x80000000 then overflows n (if negative then e - p else e + p)
    else decide (n ≠ 0) && !negative

/-- The whole number of 64 bits that a numeral stands for. A numeral with a sign, places
or a power of ten stands for none. -/
def natural64? (x : Numeral) : Option UInt64 :=
  if x.negative || !x.places.isEmpty || x.power.isSome then none
  else
    let n := value x.whole
    if n < bound64 then some (UInt64.ofNat n) else none

/-! ### Reading -/

/-- Reads one or more digits. `atEnd` is the fault of a text that ends before them. -/
def digits (atEnd : Fault) (cs : List Char) : Except Fault (List Char × List Char) :=
  match cs with
  | [] => .error atEnd
  | c :: rest =>
    if isDigit c then .ok (c :: rest.takeWhile isDigit, rest.dropWhile isDigit)
    else .error .malformed

/-- Reads the digits before the point. A zero stands alone. -/
def wholePart (atEnd : Fault) (cs : List Char) : Except Fault (List Char × List Char) :=
  match digits atEnd cs with
  | .error fault => .error fault
  | .ok ('0' :: _ :: _, _) => .error .malformed
  | .ok (ds, rest) => .ok (ds, rest)

/-- Reads a point and the digits after it, if there is a point. -/
def placesPart (atEnd : Fault) (cs : List Char) : Except Fault (List Char × List Char) :=
  match cs with
  | '.' :: rest => digits atEnd rest
  | _ => .ok ([], cs)

/-- The sign of a power of ten, and what follows it. -/
def powerSign (cs : List Char) : Bool × List Char :=
  match cs with
  | '-' :: rest => (true, rest)
  | '+' :: rest => (false, rest)
  | _ => (false, cs)

/-- Reads a power of ten, if there is one. -/
def powerPart (atEnd : Fault) (cs : List Char) :
    Except Fault (Option (Bool × List Char) × List Char) :=
  match cs with
  | [] => .ok (none, cs)
  | c :: after =>
    if c = 'e' || c = 'E' then
      match digits atEnd (powerSign after).2 with
      | .error fault => .error fault
      | .ok (ds, rest) => .ok (some ((powerSign after).1, ds), rest)
    else .ok (none, cs)

/-- Reads a numeral without its sign. -/
def unsigned (atEnd : Fault) (negative : Bool) (cs : List Char) :
    Except Fault (Numeral × List Char) :=
  match wholePart atEnd cs with
  | .error fault => .error fault
  | .ok (whole, afterWhole) =>
    match placesPart atEnd afterWhole with
    | .error fault => .error fault
    | .ok (places, afterPlaces) =>
      match powerPart atEnd afterPlaces with
      | .error fault => .error fault
      | .ok (power, rest) => .ok (⟨negative, whole, places, power⟩, rest)

/-- Reads a numeral. -/
def scan (atEnd : Fault) (cs : List Char) : Except Fault (Numeral × List Char) :=
  match cs with
  | '-' :: rest => unsigned atEnd true rest
  | _ => unsigned atEnd false cs

/-- Reads a numeral that is in the range of double precision. A whole number below
`2 ^ 64` always is. -/
def read (cs : List Char) : Except Fault (Numeral × List Char) :=
  match scan .unfinished cs with
  | .error fault => .error fault
  | .ok (x, rest) => if x.exceedsDouble then .error .malformed else .ok (x, rest)

/-- Passes over a numeral of any size. -/
def skip (cs : List Char) : Except Fault (List Char) :=
  match scan .malformed cs with
  | .error fault => .error fault
  | .ok (_, rest) => .ok rest

/-! ### What is left over is shorter -/

/-- What follows digits is shorter. -/
theorem length_lt_of_digits {atEnd : Fault} {cs ds rest : List Char}
    (h : digits atEnd cs = .ok (ds, rest)) : rest.length < cs.length := by
  unfold digits at h
  split at h
  · cases h
  · rename_i c after
    split at h <;> cases h
    exact Nat.lt_succ_of_le (List.dropWhile_sublist _).length_le

/-- What follows the digits before the point is shorter. -/
theorem length_lt_of_wholePart {atEnd : Fault} {cs ds rest : List Char}
    (h : wholePart atEnd cs = .ok (ds, rest)) : rest.length < cs.length := by
  unfold wholePart at h
  split at h
  · cases h
  · cases h
  · rename_i hdigits
    cases h
    exact length_lt_of_digits hdigits

/-- Reading the places makes no text longer. -/
theorem length_placesPart_le {atEnd : Fault} {cs ds rest : List Char}
    (h : placesPart atEnd cs = .ok (ds, rest)) : rest.length ≤ cs.length := by
  unfold placesPart at h
  split at h
  · have := length_lt_of_digits h
    simp only [List.length_cons]
    omega
  · cases h
    exact Nat.le_refl _

/-- Reading a sign makes no text longer. -/
theorem length_powerSign_le (cs : List Char) : (powerSign cs).2.length ≤ cs.length := by
  unfold powerSign
  split <;> simp

/-- Reading the power of ten makes no text longer. -/
theorem length_powerPart_le {atEnd : Fault} {cs rest : List Char}
    {power : Option (Bool × List Char)} (h : powerPart atEnd cs = .ok (power, rest)) :
    rest.length ≤ cs.length := by
  unfold powerPart at h
  split at h
  · cases h
    exact Nat.le_refl _
  · rename_i c after
    split at h
    · split at h
      · cases h
      · rename_i ds last hdigits
        cases h
        have := length_lt_of_digits hdigits
        have := length_powerSign_le after
        simp only [List.length_cons]
        omega
    · cases h
      exact Nat.le_refl _

/-- What follows an unsigned numeral is shorter. -/
theorem length_lt_of_unsigned {atEnd : Fault} {negative : Bool} {cs rest : List Char}
    {x : Numeral} (h : unsigned atEnd negative cs = .ok (x, rest)) :
    rest.length < cs.length := by
  unfold unsigned at h
  split at h
  · cases h
  · rename_i hwhole
    split at h
    · cases h
    · rename_i hplaces
      split at h
      · cases h
      · rename_i hpower
        cases h
        have := length_lt_of_wholePart hwhole
        have := length_placesPart_le hplaces
        have := length_powerPart_le hpower
        omega

/-- What follows a numeral is shorter. -/
theorem length_lt_of_scan {atEnd : Fault} {cs rest : List Char} {x : Numeral}
    (h : scan atEnd cs = .ok (x, rest)) : rest.length < cs.length := by
  unfold scan at h
  split at h
  · have := length_lt_of_unsigned h
    simp only [List.length_cons]
    omega
  · exact length_lt_of_unsigned h

/-- What follows a numeral is shorter. -/
theorem length_lt_of_read {cs rest : List Char} {x : Numeral}
    (h : read cs = .ok (x, rest)) : rest.length < cs.length := by
  unfold read at h
  split at h
  · cases h
  · rename_i hscan
    split at h <;> cases h
    exact length_lt_of_scan hscan

/-- What follows a skipped numeral is shorter. -/
theorem length_lt_of_skip {cs rest : List Char} (h : skip cs = .ok rest) :
    rest.length < cs.length := by
  unfold skip at h
  split at h
  · cases h
  · rename_i hscan
    cases h
    exact length_lt_of_scan hscan

end Numeral

end InputScript.Json
