import InputScript.Number.Integer
import InputScript.Number.Nearest

/-!
# `InputScript.Number.Decimal`: decimal numerals

A decimal numeral has an optional sign, digits with an optional point among or around
them, and an optional power of ten. The words for infinity and for no number are not
numerals.

The numeral stands for the nearest value of double precision, so that `toDouble` and not
the written digits decides what comes after.
-/

set_option autoImplicit false

namespace InputScript.Number

/-- A decimal numeral: `mantissa` times ten to the power `exponent`, with a sign. -/
structure Decimal where
  negative : Bool
  mantissa : Nat
  exponent : Int

namespace Decimal

/-- A sign in front, if any: whether it is a minus, and what follows. -/
def sign (cs : List Char) : Bool × List Char :=
  match cs with
  | '-' :: r => (true, r)
  | '+' :: r => (false, r)
  | r => (false, r)

/-- The power of ten at the end of a numeral: none, or `e` and a signed number. -/
def power? (cs : List Char) : Option Int :=
  match cs with
  | [] => some 0
  | c :: r =>
    if c = 'e' || c = 'E' then
      let (negative, digits) := sign r
      (natural? digits).map fun n => if negative then -(n : Int) else n
    else none

/-- The digits after the point, if there is a point, and what follows them. -/
def fraction (cs : List Char) : List Char × List Char :=
  match cs with
  | '.' :: r => (r.takeWhile isDigit, r.dropWhile isDigit)
  | r => ([], r)

/-- Reads a numeral. At least one digit stands before or after the point. -/
def parse? (cs : List Char) : Option Decimal :=
  let (negative, unsigned) := sign cs
  let whole := unsigned.takeWhile isDigit
  let (places, rest) := fraction (unsigned.dropWhile isDigit)
  if whole.isEmpty && places.isEmpty then none
  else (power? rest).map fun e => ⟨negative, value (whole ++ places), e - places.length⟩

/-- How many digits the mantissa has. -/
def width (d : Decimal) : Nat :=
  (Nat.toDigits 10 d.mantissa).length

/-- The absolute value as a fraction. -/
def toFraction (d : Decimal) : Fraction :=
  match d.exponent with
  | .ofNat n => ⟨d.mantissa * Nat.pow 10 n, 1⟩
  | .negSucc n => ⟨d.mantissa, Nat.pow 10 (n + 1)⟩

/-- The absolute value in double precision, when it is below ten to the power `limit`.
A numeral below `10 ^ (-330)` is nearer to zero than to any other value, so neither
bound asks for a large power of ten. -/
def toDouble? (limit : Nat) (d : Decimal) : Option Fraction :=
  let top : Int := d.width + d.exponent
  if d.mantissa = 0 || top < -330 then some ⟨0, 1⟩
  else if (limit : Int) < top then none
  else some d.toFraction.nearestDouble

end Decimal

end InputScript.Number
