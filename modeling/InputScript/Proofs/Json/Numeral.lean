import InputScript.Json.Numeral
import InputScript.Proofs.Source.Spelling

/-!
# `InputScript.Proofs.Json.Numeral`: numbers as they may be written

`Numeral.Writes` says how a number may be written: digits, with a sign, places and a power of ten
where it has them. A number is scanned as it is written if nothing follows that it could go on with
(`EndsNumber`), and each part of it ends where the next one begins.

* `digits_append`, `wholePart_append`, `placesPart_append`, `powerPart_append`: the parts.
* `Writes.scan`: a number.
-/

set_option autoImplicit false

namespace InputScript.Json

open Number

/-- No number goes on with this text. -/
def EndsNumber (rest : List Char) : Prop :=
  ∀ c, rest.head? = some c → isDigit c = false ∧ c ≠ '.' ∧ c ≠ 'e' ∧ c ≠ 'E'

namespace Numeral

/-- One digit or more. -/
def IsDigits (ds : List Char) : Prop :=
  ds ≠ [] ∧ ∀ d ∈ ds, isDigit d = true

instance (ds : List Char) : Decidable (IsDigits ds) :=
  decidable_of_iff (ds ≠ [] ∧ ds.all isDigit = true) (and_congr_right' List.all_eq_true)

/-- How the digits behind the point may be written, if there are any. -/
inductive WritesPlaces : List Char → List Char → Prop
  | absent : WritesPlaces [] []
  | present {ds : List Char} : IsDigits ds → WritesPlaces ds ('.' :: ds)

/-- How the power of ten may be written, if there is one. -/
inductive WritesPower : Option (Bool × List Char) → List Char → Prop
  | absent : WritesPower none []
  | unsigned {e : Char} {ds : List Char} : e = 'e' ∨ e = 'E' → IsDigits ds →
      WritesPower (some (false, ds)) (e :: ds)
  | plus {e : Char} {ds : List Char} : e = 'e' ∨ e = 'E' → IsDigits ds →
      WritesPower (some (false, ds)) (e :: '+' :: ds)
  | minus {e : Char} {ds : List Char} : e = 'e' ∨ e = 'E' → IsDigits ds →
      WritesPower (some (true, ds)) (e :: '-' :: ds)

/-- How a number may be written. A zero in front of other digits is superfluous. -/
inductive Writes : Numeral → List Char → Prop
  | mk {negative : Bool} {whole places afterPoint afterPlaces : List Char}
      {power : Option (Bool × List Char)} : IsDigits whole →
      (whole.head? = some '0' → whole = ['0']) → WritesPlaces places afterPoint →
      WritesPower power afterPlaces →
      Writes ⟨negative, whole, places, power⟩
        ((if negative then ['-'] else []) ++ (whole ++ (afterPoint ++ afterPlaces)))

variable {ds cs rest : List Char}

/-- Digits are no signs. -/
theorem IsDigits.head?_ne (h : IsDigits ds) {c : Char} (hc : isDigit c = false) :
    ds.head? ≠ some c := by
  intro hhead
  rw [h.2 c (List.mem_of_mem_head? hhead)] at hc
  cases hc

/-- Digits are read as far as they go. -/
theorem digits_append (atEnd : Fault) (hds : IsDigits ds)
    (hstop : ∀ c, rest.head? = some c → isDigit c = false) :
    digits atEnd (ds ++ rest) = .ok (ds, rest) := by
  obtain ⟨hne, hds⟩ := hds
  cases ds with
  | nil => exact absurd rfl hne
  | cons d ds =>
    rw [List.forall_mem_cons] at hds
    rw [List.cons_append, digits, if_pos hds.1, takeWhile_exact hds.2 hstop,
      dropWhile_exact hds.2 hstop]

/-- The digits before the point are read if there is no zero too many in front. -/
theorem wholePart_append (atEnd : Fault) (hds : IsDigits ds)
    (hzero : ds.head? = some '0' → ds = ['0'])
    (hstop : ∀ c, rest.head? = some c → isDigit c = false) :
    wholePart atEnd (ds ++ rest) = .ok (ds, rest) := by
  rw [wholePart, digits_append atEnd hds hstop]
  split
  · rename_i heq
    cases heq
  · rename_i heq
    cases heq
    cases hzero rfl
  · rename_i heq
    exact heq.symm

/-- The places are read up to what does not go on with them. -/
theorem placesPart_append (atEnd : Fault) (h : WritesPlaces ds cs)
    (hstop : ∀ c, rest.head? = some c → isDigit c = false ∧ c ≠ '.') :
    placesPart atEnd (cs ++ rest) = .ok (ds, rest) := by
  cases h with
  | absent =>
    rw [List.nil_append, placesPart]
    rintro after rfl
    exact (hstop '.' rfl).2 rfl
  | present hds => exact digits_append atEnd hds fun c hc => (hstop c hc).1

/-- The power of ten is read, with or without a sign. -/
theorem powerPart_append (atEnd : Fault) {power : Option (Bool × List Char)}
    (h : WritesPower power cs) (hrest : EndsNumber rest) :
    powerPart atEnd (cs ++ rest) = .ok (power, rest) := by
  have hstop : ∀ c, rest.head? = some c → isDigit c = false := fun c hc => (hrest c hc).1
  have hletter {e : Char} (he : e = 'e' ∨ e = 'E') : (e = 'e' || e = 'E') = true := by
    simpa using he
  cases h with
  | absent =>
    rw [List.nil_append]
    unfold powerPart
    split
    · rfl
    · rename_i c after
      obtain ⟨-, -, hlower, hupper⟩ := hrest c rfl
      rw [if_neg (by simp [hlower, hupper])]
  | @unsigned e ds he hds =>
    have hsign : powerSign (ds ++ rest) = (false, ds ++ rest) := by
      -- The sign is absent, since a digit comes first.
      obtain ⟨d, ds, rfl⟩ := List.exists_cons_of_ne_nil hds.1
      unfold powerSign
      split
      · rename_i heq
        cases heq
        exact absurd rfl (hds.head?_ne (c := '-') (by decide))
      · rename_i heq
        cases heq
        exact absurd rfl (hds.head?_ne (c := '+') (by decide))
      · rfl
    rw [List.cons_append, powerPart, if_pos (hletter he), hsign, digits_append atEnd hds hstop]
  | @plus e ds he hds =>
    rw [List.cons_append, List.cons_append, powerPart, if_pos (hletter he), powerSign,
      digits_append atEnd hds hstop]
  | @minus e ds he hds =>
    rw [List.cons_append, List.cons_append, powerPart, if_pos (hletter he), powerSign,
      digits_append atEnd hds hstop]

/-- Behind the digits before the point stands no digit. -/
theorem WritesPower.stop {power : Option (Bool × List Char)} (h : WritesPower power cs)
    (hrest : EndsNumber rest) {c : Char} (hc : (cs ++ rest).head? = some c) :
    isDigit c = false ∧ c ≠ '.' := by
  cases h with
  | absent => exact ⟨(hrest c hc).1, (hrest c hc).2.1⟩
  | unsigned he | plus he | minus he =>
    cases hc
    rcases he with rfl | rfl <;> decide

/-- A number is scanned as it is written. -/
theorem Writes.scan {x : Numeral} (h : Writes x cs) (atEnd : Fault) (hrest : EndsNumber rest) :
    scan atEnd (cs ++ rest) = .ok (x, rest) := by
  obtain @⟨negative, whole, places, afterPoint, afterPlaces, power, hwhole, hzero, hplaces,
    hpower⟩ := h
  have hpoint {c : Char} (hc : (afterPoint ++ (afterPlaces ++ rest)).head? = some c) :
      isDigit c = false := by
    cases hplaces with
    | absent => exact (hpower.stop hrest hc).1
    | present =>
      cases hc
      decide
  have hunsigned : unsigned atEnd negative (whole ++ (afterPoint ++ (afterPlaces ++ rest))) =
      .ok (⟨negative, whole, places, power⟩, rest) := by
    rw [unsigned, wholePart_append atEnd hwhole hzero fun c hc => hpoint hc]
    dsimp only
    rw [placesPart_append atEnd hplaces fun c hc => hpower.stop hrest hc]
    dsimp only
    rw [powerPart_append atEnd hpower hrest]
  simp only [List.append_assoc]
  cases negative with
  | true => exact hunsigned
  | false =>
    obtain ⟨d, ds, rfl⟩ := List.exists_cons_of_ne_nil hwhole.1
    have hminus := hwhole.head?_ne (c := '-') (by decide)
    rw [if_neg Bool.false_ne_true, List.nil_append, Numeral.scan]
    · exact hunsigned
    · rintro after heq
      cases heq
      exact hminus rfl

/-- A number begins with its sign or with a digit. -/
theorem Writes.exists_cons {x : Numeral} (h : Writes x cs) :
    ∃ c r, cs = c :: r ∧ (c = '-' || isDigit c) = true := by
  obtain @⟨negative, whole, _, _, _, _, hwhole, -, -, -⟩ := h
  cases negative with
  | true => exact ⟨'-', _, rfl, rfl⟩
  | false =>
    obtain ⟨d, ds, rfl⟩ := List.exists_cons_of_ne_nil hwhole.1
    exact ⟨d, _, rfl, by simp [hwhole.2 d List.mem_cons_self]⟩

end Numeral

end InputScript.Json
