/-!
# `InputScript.Number.Integer`: integers within bounds

An integer is written as ASCII digits with an optional sign in front. A reading names
its bounds, and a number outside them is refused as if it were no number. An unsigned
reading takes no minus sign at all, not even before a zero.

`natural?_eq_some_iff` says which texts are numbers, `lt_of_unsigned?` and
`bounds_of_signed?` that the bounds hold, and `signed?_toString` that the text of a number is
read back.
-/

set_option autoImplicit false

namespace InputScript.Number

/-- Whether a character is one of the ten ASCII digits. -/
def isDigit (c : Char) : Bool :=
  decide ('0' ≤ c) && decide (c ≤ '9')

/-- The value of an ASCII digit. -/
def digit (c : Char) : Nat :=
  c.toNat - '0'.toNat

/-- The value of a run of digits, the most significant first. -/
def value (ds : List Char) : Nat :=
  ds.foldl (fun n d => 10 * n + digit d) 0

/-- One or more digits, leading zeros allowed. -/
def natural? (cs : List Char) : Option Nat :=
  if cs.isEmpty || !cs.all isDigit then none else some (value cs)

/-- A number below `bound`, with an optional plus sign. -/
def unsigned? (bound : Nat) (s : String) : Option Nat :=
  let digits := match s.toList with
    | '+' :: ds => ds
    | ds => ds
  (natural? digits).filter (· < bound)

/-- A number from `-bound` up to but not including `bound`, with an optional sign. -/
def signed? (bound : Nat) (s : String) : Option Int :=
  let number : Option Int := match s.toList with
    | '-' :: ds => (natural? ds).map fun n => -(n : Int)
    | '+' :: ds => (natural? ds).map Int.ofNat
    | ds => (natural? ds).map Int.ofNat
  number.filter fun n => decide (-(bound : Int) ≤ n) && decide (n < bound)

/-- A byte. -/
abbrev byte? : String → Option Nat := unsigned? 0x100

/-- Numbers of 64 bits lie below this bound. -/
abbrev bound64 : Nat := 0x10000000000000000

/-- An unsigned number of 64 bits. -/
abbrev natural64? : String → Option Nat := unsigned? bound64

/-- A signed number of 32 bits. -/
abbrev integer32? : String → Option Int := signed? 0x80000000

/-- A signed number of 64 bits. -/
abbrev integer64? : String → Option Int := signed? 0x8000000000000000

/-- The ten digits follow one another. -/
theorem toNat_of_isDigit {c : Char} (h : isDigit c = true) : 48 ≤ c.toNat ∧ c.toNat ≤ 57 := by
  simpa [isDigit, Char.le_def, UInt32.le_iff_toNat_le] using h

/-- A text is a number exactly when it is a non-empty run of digits. -/
theorem natural?_eq_some_iff {cs : List Char} {n : Nat} :
    natural? cs = some n ↔ cs ≠ [] ∧ (∀ c ∈ cs, isDigit c = true) ∧ value cs = n := by
  unfold natural?
  cases cs with
  | nil => simp
  | cons c cs => by_cases h : (c :: cs).all isDigit = true <;> simp_all

/-- An unsigned reading stays below its bound. -/
theorem lt_of_unsigned? {bound n : Nat} {s : String} (h : unsigned? bound s = some n) :
    n < bound := by
  simpa using (Option.filter_eq_some_iff.mp h).2

/-- A signed reading stays within its bounds. -/
theorem bounds_of_signed? {bound : Nat} {s : String} {n : Int}
    (h : signed? bound s = some n) : -(bound : Int) ≤ n ∧ n < bound := by
  simpa using (Option.filter_eq_some_iff.mp h).2

/-- A number is written with digits only. -/
theorem isDigit_of_mem_toDigits {n : Nat} {c : Char} (h : c ∈ Nat.toDigits 10 n) :
    isDigit c = true := by
  have hdigit := Nat.isDigit_of_mem_toDigits (by decide) (by decide) h
  simp only [Char.isDigit, ge_iff_le, Bool.and_eq_true, decide_eq_true_eq] at hdigit
  simp only [isDigit, Bool.and_eq_true, decide_eq_true_eq]
  exact hdigit

/-- The digits of a number are read back. -/
theorem natural?_toDigits (n : Nat) : natural? (Nat.toDigits 10 n) = some n := by
  rw [natural?_eq_some_iff]
  refine ⟨Nat.toDigits_ne_nil, fun c hc => isDigit_of_mem_toDigits hc, ?_⟩
  exact Nat.ofDigitChars_toDigits (by decide) (by decide)

/-- The decimal text of a number is read back as long as the number is within the bounds. -/
theorem signed?_toString {bound n : Nat} (h : n < bound) :
    signed? bound (toString n) = some (n : Int) := by
  have htext : (toString n).toList = Nat.toDigits 10 n := Nat.toList_repr
  rw [signed?, htext]
  -- A sign would be one of the digits.
  split
  · rename_i ds hds
    exact absurd (isDigit_of_mem_toDigits (n := n) (c := '-') (by simp [hds])) (by decide)
  · rename_i ds hds
    exact absurd (isDigit_of_mem_toDigits (n := n) (c := '+') (by simp [hds])) (by decide)
  · rw [natural?_toDigits, Option.map_some, Option.filter_some, if_pos]
    · rfl
    · simp only [Bool.and_eq_true, decide_eq_true_eq, Int.ofNat_eq_natCast]
      omega

example : unsigned? 256 "+007" = some 7 := by decide
example : unsigned? 256 "256" = none := by decide
example : unsigned? 256 "-0" = none := by decide
example : integer32? "-2147483648" = some (-2147483648) := by decide
example : integer32? "2147483648" = none := by decide

end InputScript.Number
