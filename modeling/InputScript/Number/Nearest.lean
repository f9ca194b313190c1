/-!
# `InputScript.Number.Nearest`: rounding to the nearest

A quotient rounds to the nearest natural number, and a half goes to the even neighbour.
The same rule on the grid of binary fractions with 53 significant bits gives the nearest
value of double precision.

`roundHalfEven_mul` says that a whole quotient is left as it is, and
`two_mul_roundHalfEven_le` and `le_two_mul_roundHalfEven` that the result is never more
than a half away.
-/

set_option autoImplicit false

namespace InputScript.Number

/-- The natural number nearest to `num / den`; a half goes to the even neighbour. -/
def roundHalfEven (num den : Nat) : Nat :=
  let below := num / den
  let rest := num % den
  if 2 * rest < den then below
  else if den < 2 * rest then below + 1
  else if below % 2 = 0 then below else below + 1

/-- A fraction of natural numbers. -/
structure Fraction where
  num : Nat
  den : Nat

/-- `num / den` times a power of two. -/
def Fraction.scale (f : Fraction) (power : Int) : Fraction :=
  match power with
  | .ofNat n => ⟨f.num <<< n, f.den⟩
  | .negSucc n => ⟨f.num, f.den <<< (n + 1)⟩

/-- The exponent `k` with `2 ^ k ≤ num / den < 2 ^ (k + 1)`, for a positive fraction. -/
def Fraction.magnitude (f : Fraction) : Int :=
  let k : Int := (Nat.log2 f.num : Int) - Nat.log2 f.den
  let scaled := f.scale (-k)
  if scaled.den ≤ scaled.num then k else k - 1

/-- The nearest value of double precision: 53 significant bits, and no bit below
`2 ^ (-1074)`. The largest exponent is not enforced here. -/
def Fraction.nearestDouble (f : Fraction) : Fraction :=
  if f.num = 0 then ⟨0, 1⟩
  else
    let unit : Int := max (f.magnitude - 52) (-1074)
    let scaled := f.scale (-unit)
    Fraction.scale ⟨roundHalfEven scaled.num scaled.den, 1⟩ unit

/-- A whole quotient is left as it is. -/
theorem roundHalfEven_mul (n : Nat) {den : Nat} (h : 0 < den) :
    roundHalfEven (n * den) den = n := by
  simp [roundHalfEven, Nat.mul_div_cancel n h, h]

/-- The result is at most a half above the quotient. -/
theorem two_mul_roundHalfEven_le (num : Nat) {den : Nat} (h : 0 < den) :
    2 * (den * roundHalfEven num den) ≤ 2 * num + den := by
  have hdiv := Nat.div_add_mod num den
  have hmod := Nat.mod_lt num h
  have hsucc := Nat.mul_add den (num / den) 1
  simp only [roundHalfEven]
  split
  · omega
  · split
    · omega
    · split <;> omega

/-- The result is at most a half below the quotient. -/
theorem le_two_mul_roundHalfEven (num : Nat) {den : Nat} (h : 0 < den) :
    2 * num ≤ 2 * (den * roundHalfEven num den) + den := by
  have hdiv := Nat.div_add_mod num den
  have hmod := Nat.mod_lt num h
  have hsucc := Nat.mul_add den (num / den) 1
  simp only [roundHalfEven]
  split
  · omega
  · split
    · omega
    · split <;> omega

example : roundHalfEven 5 2 = 2 := by decide
example : roundHalfEven 7 2 = 4 := by decide

end InputScript.Number
