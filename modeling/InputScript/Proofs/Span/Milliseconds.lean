import InputScript.Proofs.Number.Natural
import InputScript.Span

/-!
# `InputScript.Proofs.Span.Milliseconds`: spans of whole milliseconds

A span of whole milliseconds is written as a number, with its unit or without one. Blanks around it
do not count, and neither do blanks between the number and its unit. The number may be any of 64
bits, and the span is exact to the nanosecond. A greater number is refused and not rounded: the unit
ends like that of seconds, but no such text gets as far as the reader of seconds.

* `Span.parse_bare`, `Span.parse_unit`: the two spellings, with the cause if the number is refused.
* `Span.parse_cases`, `Span.parse_iff`: when a text of either spelling is a span, and which one.
-/

set_option autoImplicit false

namespace InputScript

open Number Text

/-- The ways to write a number of milliseconds. -/
inductive WritesMillis (n : Nat) : List Char → Prop
  | bare {before numeral after : List Char} :
      IsGap before → WritesNatural n numeral → IsGap after →
      WritesMillis n (before ++ numeral ++ after)
  | unit {before numeral gap after : List Char} :
      IsGap before → WritesNatural n numeral → IsGap gap → IsGap after →
      WritesMillis n (before ++ (numeral ++ gap ++ ['m', 's']) ++ after)

namespace Number.WritesNatural

variable {n : Nat} {numeral : List Char}

/-- There is no blank at either end of a number. -/
theorem trimmed (h : WritesNatural n numeral) : Trimmed numeral where
  first := fun _ hc => (h.noDelimiter (List.mem_of_head? hc)).1
  last := fun _ hc => (h.noDelimiter (List.mem_of_getLast? hc)).1

/-- The unit is no part of a number. -/
theorem unit_notMem (h : WritesNatural n numeral) : 's' ∉ numeral := by
  intro hs
  rcases h.isDigit_or_plus hs with hdigit | hplus
  · cases hdigit
  · cases hplus

/-- There is no blank at either end of a number with its unit. -/
theorem trimmed_unit (h : WritesNatural n numeral) (gap : List Char) :
    Trimmed (numeral ++ gap ++ ['m', 's']) where
  first := by
    intro c hc
    have hfirst := List.head?_eq_some_head h.ne_nil
    rw [List.append_assoc, List.head?_append, hfirst, Option.some_or, ← hfirst] at hc
    exact h.trimmed.first c hc
  last := by
    intro c hc
    rw [List.getLast?_append] at hc
    cases hc
    rfl

/-- A number is a number of milliseconds. -/
theorem writesMillis (h : WritesNatural n numeral) : WritesMillis n numeral := by
  have hbare := WritesMillis.bare (List.forall_mem_nil _) h (List.forall_mem_nil _)
  rwa [List.nil_append, List.append_nil] at hbare

end Number.WritesNatural

namespace Span

variable {n : Nat} {before numeral gap after : List Char}

/-- A number without a unit is read as so many milliseconds, if it has no more than 64 bits. -/
theorem parse_bare (hbefore : IsGap before) (h : WritesNatural n numeral) (hafter : IsGap after) :
    parse (String.ofList (before ++ numeral ++ after)) =
      if n < bound64 then .ok (.ofMillis n) else .error (.form (String.ofList numeral)) := by
  have hread : natural64? (String.ofList numeral) = if n < bound64 then some n else none :=
    unsigned?_of_writesNatural (by rwa [String.toList_ofList]) bound64
  rw [parse, String.toList_ofList, trim_pad hbefore hafter, h.trimmed.trim_eq, hread]
  by_cases hfits : n < bound64
  · simp only [if_pos hfits]
  · simp only [if_neg hfits]
    -- Neither unit can end the number.
    have hunit (rest : List Char) : numeral.reverse ≠ 's' :: rest := by
      intro hrest
      exact h.unit_notMem (List.mem_reverse.mp (hrest ▸ List.mem_cons_self))
    split
    · exact absurd ‹_› (hunit _)
    · exact absurd ‹_› (hunit _)
    · rfl

/-- A number with its unit is read as so many milliseconds, if it has no more than 64 bits. -/
theorem parse_unit (hbefore : IsGap before) (h : WritesNatural n numeral) (hgap : IsGap gap)
    (hafter : IsGap after) :
    parse (String.ofList (before ++ (numeral ++ gap ++ ['m', 's']) ++ after)) =
      if n < bound64 then .ok (.ofMillis n)
      else .error (.milliseconds (String.ofList (numeral ++ gap ++ ['m', 's']))) := by
  have hread : natural64? (String.ofList numeral) = if n < bound64 then some n else none :=
    unsigned?_of_writesNatural (by rwa [String.toList_ofList]) bound64
  have hnone : natural64? (String.ofList (numeral ++ gap ++ ['m', 's'])) = none := by
    rw [Option.eq_none_iff_forall_ne_some]
    intro m hm
    have hwrites := (unsigned?_iff.mp hm).2
    rw [String.toList_ofList] at hwrites
    exact hwrites.unit_notMem (by simp)
  have hreverse : (numeral ++ gap ++ ['m', 's']).reverse =
      's' :: 'm' :: (numeral ++ gap).reverse := by
    simp
  rw [parse, String.toList_ofList, trim_pad hbefore hafter, (h.trimmed_unit gap).trim_eq, hnone,
    hreverse]
  simp only [List.reverse_reverse, hgap.trim_append h.trimmed, hread]
  by_cases hfits : n < bound64
  · simp only [if_pos hfits]
  · simp only [if_neg hfits]

/-- However a number of milliseconds is written, it is read as exactly so many or refused. -/
theorem parse_cases {text : String} (h : WritesMillis n text.toList) :
    (n < bound64 ∧ parse text = .ok (.ofMillis n)) ∨
      (¬n < bound64 ∧ ∃ e, parse text = .error e) := by
  have htext : String.ofList text.toList = text := String.ofList_toList
  generalize text.toList = cs at h htext
  subst htext
  have hcases {e : SpanError} {result : Except SpanError Span}
      (hresult : result = if n < bound64 then .ok (.ofMillis n) else .error e) :
      (n < bound64 ∧ result = .ok (.ofMillis n)) ∨ (¬n < bound64 ∧ ∃ e, result = .error e) := by
    by_cases hfits : n < bound64
    · exact .inl ⟨hfits, hresult.trans (if_pos hfits)⟩
    · exact .inr ⟨hfits, e, hresult.trans (if_neg hfits)⟩
  cases h with
  | bare hbefore hnumeral hafter => exact hcases (parse_bare hbefore hnumeral hafter)
  | unit hbefore hnumeral hgap hafter => exact hcases (parse_unit hbefore hnumeral hgap hafter)

/-- It is read exactly if it has no more than 64 bits. -/
theorem parse_iff {text : String} (h : WritesMillis n text.toList) {span : Span} :
    parse text = .ok span ↔ n < bound64 ∧ span = .ofMillis n := by
  obtain ⟨hfits, hread⟩ | ⟨hbeyond, e, hread⟩ := parse_cases h
  · rw [hread, Except.ok.injEq, eq_comm]
    exact (and_iff_right hfits).symm
  · rw [hread]
    exact ⟨nofun, fun hspan => absurd hspan.1 hbeyond⟩

end Span

end InputScript
