import InputScript.Proofs.Json.WholeNumber

/-!
# `InputScript.Proofs.Number.Natural`: natural numbers in decimal

A natural number is written with its decimal digits. Zeros may stand in front of them, as many as
one likes, and a plus sign in front of all. `WritesNatural` says so without the reader. The reader
takes exactly these texts for numbers, and refuses a number only because of its size.

* `natural?_iff`: which digits are those of a number.
* `unsigned?_iff`, `unsigned?_of_writesNatural`: which texts are read, and what becomes of a number
  of any size.
-/

set_option autoImplicit false

namespace InputScript.Number

variable {n : Nat} {ds : List Char}

/-- The ways to write a natural number in decimal. -/
inductive WritesNatural (n : Nat) : List Char → Prop
  | plain (zeros : Nat) : WritesNatural n (List.replicate zeros '0' ++ Nat.toDigits 10 n)
  | plus (zeros : Nat) :
      WritesNatural n ('+' :: (List.replicate zeros '0' ++ Nat.toDigits 10 n))

/-! ### Digits and zeros in front of them -/

/-- A digit neither ends a word nor begins a comment or a quotation. -/
theorem noDelimiter_of_isDigit {c : Char} (h : isDigit c = true) :
    Text.isBlank c = false ∧ c ≠ '#' ∧ c ≠ '"' := by
  obtain ⟨hlow, hhigh⟩ := toNat_of_isDigit h
  refine ⟨?_, ?_, ?_⟩
  · simp only [Text.isBlank, Bool.or_eq_false_iff, Bool.and_eq_false_iff, decide_eq_false_iff_not,
      beq_eq_false_iff_ne]
    omega
  · rintro rfl
    cases h
  · rintro rfl
    cases h

/-- A digit is written for its value. -/
theorem toDigits_digit {c : Char} (h : isDigit c = true) :
    digit c < 10 ∧ Nat.toDigits 10 (digit c) = [c] := by
  obtain ⟨hlow, hhigh⟩ := toNat_of_isDigit h
  have hvalue : digit c = c.toNat - 48 := rfl
  have hlt : digit c < 10 := by omega
  refine ⟨hlt, ?_⟩
  rw [Nat.toDigits_of_lt_base hlt, List.singleton_inj]
  apply Char.toNat_inj.mp
  rw [Nat.toNat_digitChar_of_lt_ten hlt]
  omega

/-- Digits behind those of a number that is not zero are the digits of a greater number. -/
theorem toDigits_append (hn : 0 < n) (h : ∀ d ∈ ds, isDigit d = true) :
    Nat.toDigits 10 n ++ ds = Nat.toDigits 10 (ds.foldl (fun n d => 10 * n + digit d) n) := by
  -- The number stays positive, so that none of its digits is a zero in front.
  induction ds generalizing n with
  | nil => rw [List.append_nil, List.foldl_nil]
  | cons d ds ih =>
    rw [List.forall_mem_cons] at h
    obtain ⟨hlt, hdigit⟩ := toDigits_digit h.1
    calc
      Nat.toDigits 10 n ++ d :: ds = (Nat.toDigits 10 n ++ Nat.toDigits 10 (digit d)) ++ ds := by
        rw [hdigit, List.append_assoc, List.singleton_append]
      _ = Nat.toDigits 10 (10 * n + digit d) ++ ds := by
        rw [Nat.toDigits_append_toDigits (by decide) hn hlt]
      _ = _ := ih (by omega) h.2

/-- Digits are zeros and then the digits of their value. -/
theorem exists_zeros (hne : ds ≠ []) (h : ∀ d ∈ ds, isDigit d = true) :
    ∃ zeros, ds = List.replicate zeros '0' ++ Nat.toDigits 10 (value ds) := by
  induction ds with
  | nil => exact absurd rfl hne
  | cons d ds ih =>
    rw [List.forall_mem_cons] at h
    obtain ⟨hlt, hdigit⟩ := toDigits_digit h.1
    by_cases hzero : digit d = 0
    · -- The digit is a zero, which stands in front unless nothing follows.
      obtain rfl : '0' = d := by rwa [hzero, Nat.toDigits_zero, List.singleton_inj] at hdigit
      by_cases hlast : ds = []
      · subst hlast
        exact ⟨0, rfl⟩
      · obtain ⟨zeros, hds⟩ := ih hlast h.2
        exact ⟨zeros + 1, congrArg ('0' :: ·) hds⟩
    · have hvalue : value (d :: ds) = ds.foldl (fun n d => 10 * n + digit d) (digit d) := by
        rw [value, List.foldl_cons, Nat.mul_zero, Nat.zero_add]
      refine ⟨0, ?_⟩
      rw [hvalue, ← toDigits_append (Nat.pos_of_ne_zero hzero) h.2, hdigit]
      rfl

/-- Zeros in front do not count. -/
theorem value_zeros_append (zeros : Nat) (ds : List Char) :
    value (List.replicate zeros '0' ++ ds) = value ds := by
  induction zeros with
  | zero => rfl
  | succ zeros ih => exact ih

/-- Digits are those of a number exactly if they are its decimal digits behind zeros. -/
theorem natural?_iff :
    natural? ds = some n ↔ ∃ zeros, ds = List.replicate zeros '0' ++ Nat.toDigits 10 n := by
  rw [natural?_eq_some_iff]
  constructor
  · rintro ⟨hne, hdigits, rfl⟩
    exact exists_zeros hne hdigits
  · rintro ⟨zeros, rfl⟩
    refine ⟨by simp, ?_, by rw [value_zeros_append, value_toDigits]⟩
    intro d hd
    rcases List.mem_append.mp hd with hd | hd
    · rw [List.eq_of_mem_replicate hd]
      decide
    · exact isDigit_of_mem_toDigits hd

/-! ### Signs and bounds -/

/-- A number without a plus sign is written with digits. -/
theorem writesNatural_iff (h : ∀ rest, ds ≠ '+' :: rest) :
    WritesNatural n ds ↔ natural? ds = some n := by
  rw [natural?_iff]
  constructor
  · intro hwrites
    cases hwrites with
    | plain zeros => exact ⟨zeros, rfl⟩
    | plus zeros => exact absurd rfl (h _)
  · rintro ⟨zeros, rfl⟩
    exact .plain zeros

/-- Digits follow a plus sign. -/
theorem writesNatural_plus_iff : WritesNatural n ('+' :: ds) ↔ natural? ds = some n := by
  rw [natural?_iff]
  constructor
  · intro hwrites
    generalize hcs : '+' :: ds = cs at hwrites
    cases hwrites with
    | plain zeros =>
      -- The sign would be one of the digits.
      have hdigits := (natural?_eq_some_iff.mp (natural?_iff.mpr ⟨zeros, hcs⟩)).2.1
      have hplus := hdigits '+' List.mem_cons_self
      cases hplus
    | plus zeros => exact ⟨zeros, List.tail_eq_of_cons_eq hcs⟩
  · rintro ⟨zeros, rfl⟩
    exact .plus zeros

/-- The texts that are read: numbers below the bound, in any way to write them. -/
theorem unsigned?_iff {bound : Nat} {text : String} :
    unsigned? bound text = some n ↔ n < bound ∧ WritesNatural n text.toList := by
  rw [unsigned?, Option.filter_eq_some_iff, decide_eq_true_eq, And.comm]
  refine and_congr_right fun _ => ?_
  split
  · rename_i rest htext
    rw [htext]
    exact writesNatural_plus_iff.symm
  · rename_i hplain
    exact (writesNatural_iff hplain).symm

namespace WritesNatural

variable {cs : List Char}

/-- A text stands for one number only. -/
theorem unique {m : Nat} (hm : WritesNatural m cs) (hn : WritesNatural n cs) : m = n := by
  have hread {k : Nat} (hk : k < m + n + 1) (h : WritesNatural k cs) :
      unsigned? (m + n + 1) (String.ofList cs) = some k := by
    rw [unsigned?_iff, String.toList_ofList]
    exact ⟨hk, h⟩
  exact Option.some.inj ((hread (by omega) hm).symm.trans (hread (by omega) hn))

/-- A number is written with digits and plus signs only. -/
theorem isDigit_or_plus (h : WritesNatural n cs) {c : Char} (hc : c ∈ cs) :
    isDigit c = true ∨ c = '+' := by
  have hdigits (zeros : Nat) :
      ∀ d ∈ List.replicate zeros '0' ++ Nat.toDigits 10 n, isDigit d = true :=
    (natural?_eq_some_iff.mp (natural?_iff.mpr ⟨zeros, rfl⟩)).2.1
  cases h with
  | plain zeros => exact .inl (hdigits zeros c hc)
  | plus zeros => exact (List.mem_cons.mp hc).symm.imp_left (hdigits zeros c)

/-- A number may stand without quotes. -/
theorem noDelimiter (h : WritesNatural n cs) {c : Char} (hc : c ∈ cs) :
    Text.isBlank c = false ∧ c ≠ '#' ∧ c ≠ '"' := by
  rcases h.isDigit_or_plus hc with hdigit | rfl
  · exact noDelimiter_of_isDigit hdigit
  · decide

theorem ne_nil (h : WritesNatural n cs) : cs ≠ [] := by
  cases h with
  | plain zeros => simp
  | plus zeros => exact List.cons_ne_nil _ _

end WritesNatural

/-- However a number is written, and with however many digits, it is read if it is below the bound
and refused if not. -/
theorem unsigned?_of_writesNatural {text : String} (h : WritesNatural n text.toList)
    (bound : Nat) : unsigned? bound text = if n < bound then some n else none := by
  split
  · exact unsigned?_iff.mpr ⟨‹_›, h⟩
  · rename_i hbeyond
    rw [Option.eq_none_iff_forall_ne_some]
    intro m hm
    obtain ⟨hlt, hwrites⟩ := unsigned?_iff.mp hm
    exact hbeyond (hwrites.unique h ▸ hlt)

end InputScript.Number
