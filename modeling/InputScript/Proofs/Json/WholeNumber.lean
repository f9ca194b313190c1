import InputScript.Proofs.Json.Numeral
import Mathlib.Tactic.Ring

/-!
# `InputScript.Proofs.Json.WholeNumber`: a whole number is read back

A number of 64 bits is written with its decimal digits. Two things could keep a reader from taking
them: a zero in front of other digits, and the check that a numeral is in the range of double
precision, which rounds before it compares. Neither can happen. Decimal digits have no superfluous
zero in front, and rounding at most doubles a number, so one of 64 bits is far below the limit.

* `nearestDouble_natural`: rounding to double precision at most doubles a number.
* `not_exceedsDouble`: a numeral with the digits of a 64-bit number is in range.
* `read_toDigits`: such a numeral is read as far as its digits go.
* `natural64?_toDigits`: it stands for the number that it was written for.
-/

set_option autoImplicit false

namespace InputScript

open Number

namespace Number

/-! ### Rounding to double precision -/

/-- Scaling by a power of two that is not negative. -/
theorem Fraction.scale_natCast (f : Fraction) (u : Nat) : f.scale u = ⟨f.num <<< u, f.den⟩ :=
  rfl

/-- Scaling by one that is not positive. -/
theorem Fraction.scale_neg_natCast (f : Fraction) (u : Nat) :
    f.scale (-u) = ⟨f.num, f.den <<< u⟩ := by
  cases u with
  | zero => rfl
  | succ u => rfl

/-- The magnitude of a number is at most the number of its leading bit. -/
theorem Fraction.magnitude_natural_le (n : Nat) :
    (⟨n, 1⟩ : Fraction).magnitude ≤ (Nat.log2 n : Int) := by
  have hone : Nat.log2 1 = 0 := by decide
  simp only [Fraction.magnitude, hone]
  split <;> omega

/-- Rounding to a multiple of a power of two that is at most the number gives at most the double of
the number. -/
theorem roundHalfEven_shift_le {n u : Nat} (hu : u ≤ Nat.log2 n) (hn : n ≠ 0) :
    roundHalfEven n (1 <<< u) <<< u ≤ 2 * n := by
  have hpow : 2 ^ u ≤ n := by
    calc 2 ^ u ≤ 2 ^ Nat.log2 n := Nat.pow_le_pow_right (by decide) hu
      _ ≤ n := Nat.log2_self_le hn
  have hunit : 1 <<< u = 2 ^ u := by rw [Nat.shiftLeft_eq, Nat.one_mul]
  have hround := two_mul_roundHalfEven_le n (Nat.two_pow_pos u)
  rw [hunit, Nat.shiftLeft_eq, Nat.mul_comm]
  omega

/-- Rounding a number to double precision at most doubles it. -/
theorem nearestDouble_natural (n : Nat) :
    0 < (Fraction.nearestDouble ⟨n, 1⟩).den ∧
      (Fraction.nearestDouble ⟨n, 1⟩).num ≤ 2 * n * (Fraction.nearestDouble ⟨n, 1⟩).den := by
  rw [Fraction.nearestDouble]
  by_cases hn : n = 0
  · rw [if_pos hn]
    exact ⟨Nat.one_pos, Nat.zero_le _⟩
  rw [if_neg hn]
  dsimp only
  have hunit : max ((⟨n, 1⟩ : Fraction).magnitude - 52) (-1074) ≤ (Nat.log2 n : Int) := by
    have := Fraction.magnitude_natural_le n
    omega
  generalize max ((⟨n, 1⟩ : Fraction).magnitude - 52) (-1074) = unit at hunit
  obtain ⟨u, rfl | rfl⟩ := unit.eq_nat_or_neg
  · -- The unit is at least one, so bits may get lost.
    rw [Fraction.scale_neg_natCast, Fraction.scale_natCast]
    refine ⟨Nat.one_pos, ?_⟩
    show roundHalfEven n (1 <<< u) <<< u ≤ 2 * n * 1
    rw [Nat.mul_one]
    exact roundHalfEven_shift_le (by omega) hn
  · -- The unit is at most one, and a whole number stays as it is.
    rw [Int.neg_neg, Fraction.scale_natCast, Fraction.scale_neg_natCast]
    have hround : roundHalfEven (n <<< u) 1 = n <<< u := by
      have := roundHalfEven_mul (n <<< u) Nat.one_pos
      rwa [Nat.mul_one] at this
    have hpos : 0 < 1 <<< u := by
      rw [Nat.shiftLeft_eq, Nat.one_mul]
      exact Nat.two_pow_pos u
    refine ⟨hpos, ?_⟩
    show roundHalfEven (n <<< u) 1 ≤ 2 * n * 1 <<< u
    rw [hround, Nat.shiftLeft_eq, Nat.shiftLeft_eq, Nat.one_mul, Nat.mul_assoc]
    omega

/-! ### Decimal digits -/

/-- The digits of a number that is not zero do not begin with a zero. -/
theorem head?_toDigits_ne_zero {n : Nat} (hn : 0 < n) : (Nat.toDigits 10 n).head? ≠ some '0' := by
  induction n using Nat.strongRecOn with
  | ind n ih =>
    by_cases hlt : n < 10
    · rw [Nat.toDigits_of_lt_base hlt, List.head?_cons]
      have hall : ∀ d : Fin 10, 0 < d.val → some (Nat.digitChar d.val) ≠ some '0' := by decide
      exact hall ⟨n, hlt⟩ hn
    · -- The first digit is that of a tenth of the number.
      have hfirst := List.head?_eq_some_head (Nat.toDigits_ne_nil (b := 10) (n := n / 10))
      rw [Nat.toDigits_of_base_le (by decide) (by omega), List.head?_append, hfirst,
        Option.some_or, ← hfirst]
      exact ih (n / 10) (by omega) (by omega)

/-- The value of the digits of a number is the number. -/
theorem value_toDigits (n : Nat) : value (Nat.toDigits 10 n) = n :=
  (natural?_eq_some_iff.mp (natural?_toDigits n)).2.2

end Number

namespace Json

namespace Numeral

/-! ### Range -/

/-- Further digits make no number smaller. -/
theorem le_foldl_digit (n : Nat) (ds : List Char) :
    n ≤ ds.foldl (fun n d => 10 * n + digit d) n := by
  induction ds generalizing n with
  | nil => exact Nat.le_refl n
  | cons d ds ih =>
    have := ih (10 * n + digit d)
    rw [List.foldl_cons]
    omega

/-- Digits whose number is below the bound are all taken. -/
theorem absorb_eq {bound n : Nat} {ds : List Char}
    (h : ds.foldl (fun n d => 10 * n + digit d) n < bound) :
    absorb bound n ds = (ds.foldl (fun n d => 10 * n + digit d) n, []) := by
  induction ds generalizing n with
  | nil => rfl
  | cons d ds ih =>
    rw [List.foldl_cons] at h
    have hle := le_foldl_digit (10 * n + digit d) ds
    rw [absorb, if_pos (Nat.lt_of_le_of_lt hle h), ih h, List.foldl_cons]

/-- A number of 64 bits does not round to infinity. -/
theorem overflows_eq_false {n : Nat} (h : n < bound64) : overflows n 0 = false := by
  rw [overflows]
  by_cases hn : n = 0
  · rw [if_pos (by simp [hn])]
  rw [if_neg (by simp [hn]), if_neg (by decide)]
  obtain ⟨hden, hnum⟩ := nearestDouble_natural n
  obtain ⟨hden', hnum'⟩ := nearestDouble_natural 1
  show decide ((1 <<< 1024 - 1 <<< 970) *
    ((Fraction.nearestDouble ⟨n, 1⟩).den * (Fraction.nearestDouble ⟨1, 1⟩).den) ≤
      (Fraction.nearestDouble ⟨n, 1⟩).num * (Fraction.nearestDouble ⟨1, 1⟩).num) = false
  generalize Fraction.nearestDouble ⟨n, 1⟩ = x at *
  generalize Fraction.nearestDouble ⟨1, 1⟩ = y at *
  rw [decide_eq_false_iff_not, Nat.not_le]
  calc x.num * y.num ≤ (2 * n * x.den) * (2 * 1 * y.den) := Nat.mul_le_mul hnum hnum'
    _ = 4 * n * (x.den * y.den) := by ring
    _ < (1 <<< 1024 - 1 <<< 970) * (x.den * y.den) := by
      apply Nat.mul_lt_mul_of_pos_right _ (Nat.mul_pos hden hden')
      have hlimit : 4 * bound64 ≤ 1 <<< 1024 - 1 <<< 970 := by decide
      omega

/-- A numeral with the digits of a 64-bit number is in the range of double precision. -/
theorem not_exceedsDouble {n : Nat} (h : n < bound64) :
    exceedsDouble ⟨false, Nat.toDigits 10 n, [], none⟩ = false := by
  have hvalue := value_toDigits n
  have habsorb : absorb bound64 0 (Nat.toDigits 10 n) = (n, []) := by
    rw [value] at hvalue
    rw [absorb_eq (by rw [hvalue]; exact h), hvalue]
  have hsignificand : significand ⟨false, Nat.toDigits 10 n, [], none⟩ = (n, 0) := by
    rw [significand, habsorb]
    rfl
  rw [exceedsDouble, hsignificand]
  exact overflows_eq_false h

/-! ### Reading -/

/-- The digits of a number are a numeral: there is no zero too many in front. -/
theorem writes_toDigits (n : Nat) :
    Writes ⟨false, Nat.toDigits 10 n, [], none⟩ (Nat.toDigits 10 n) := by
  have hdigits : IsDigits (Nat.toDigits 10 n) :=
    ⟨Nat.toDigits_ne_nil, fun d hd => isDigit_of_mem_toDigits hd⟩
  have hzero : (Nat.toDigits 10 n).head? = some '0' → Nat.toDigits 10 n = ['0'] := by
    -- A zero stands in front only if the number is zero, and then alone.
    intro hhead
    by_cases hn : n = 0
    · rw [hn, Nat.toDigits_of_lt_base (by decide)]
      rfl
    · exact absurd hhead (head?_toDigits_ne_zero (Nat.pos_of_ne_zero hn))
  have hwrites : Writes ⟨false, Nat.toDigits 10 n, [], none⟩ _ :=
    .mk hdigits hzero .absent .absent
  rwa [if_neg Bool.false_ne_true, List.nil_append, List.append_nil, List.append_nil] at hwrites

/-- A numeral with the digits of a 64-bit number is read as far as the digits go. -/
theorem read_toDigits {n : Nat} (h : n < bound64) {rest : List Char} (hrest : EndsNumber rest) :
    read (Nat.toDigits 10 n ++ rest) = .ok (⟨false, Nat.toDigits 10 n, [], none⟩, rest) := by
  rw [read, (writes_toDigits n).scan .unfinished hrest]
  dsimp only
  rw [not_exceedsDouble h, if_neg (by decide)]

/-- A numeral with the digits of a 64-bit number stands for that number. -/
theorem natural64?_toDigits (n : UInt64) :
    natural64? ⟨false, Nat.toDigits 10 n.toNat, [], none⟩ = some n := by
  have hlt : n.toNat < bound64 := n.toNat_lt
  rw [natural64?, if_neg (by simp), value_toDigits]
  dsimp only
  rw [if_pos hlt, UInt64.ofNat_toNat]

end Numeral

end Json

end InputScript
