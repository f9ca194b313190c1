import InputScript.Proofs.Script.Numbering
import Mathlib.Order.Bounds.Basic

/-!
# `InputScript.Proofs.Script.LineLookup`: from a line to an index

The index for a line is found by passing over the instructions that lie before it. In a script that
compiles the lines of the instructions increase, so an index can as well be told from one
instruction: the index for a line is at most that of an instruction exactly if the line is at most
that of the instruction (`indexForLine_le_iff`). The index grows with the line, the line of an
instruction leads to that instruction, and a line behind the last one leads to the end.

A search by halves relies on nothing else. `Finds` covers every search that tries indices and moves
the bounds of what is left, in whatever steps it does so.

* `indexForLine_isLeast`: the index for a line is the least one that will do.
* `finds_iff`: such a search can end at the index for the line, and nowhere else.
* `Catalog.linesLookUp_of_compile`: the whole statement.
-/

set_option autoImplicit false

namespace InputScript

namespace Script

/-- The indices of the instructions at or behind a line. -/
def fromLine (s : Script) (line : Nat) : Set Nat :=
  {index | ∃ i, s.instructions[index]? = some i ∧ line ≤ i.line}

/-- A search for the first instruction at or behind a line, between two bounds. It tries any index
and moves one bound. If the instruction there lies before the line, the lower bound moves, at most
to the index behind it, and if not, the upper bound does, at most down to the index itself. -/
inductive Finds (s : Script) (line : Nat) : Nat → Nat → Nat → Prop
  | met (index : Nat) : Finds s line index index index
  | behind {low low' tried high index : Nat} {i : Instruction} :
      s.instructions[tried]? = some i → i.line < line → low' ≤ tried + 1 →
      Finds s line low' high index → Finds s line low high index
  | inFront {low tried high high' index : Nat} {i : Instruction} :
      s.instructions[tried]? = some i → line ≤ i.line → tried ≤ high' →
      Finds s line low high' index → Finds s line low high index

/-- The lines of a script and the indices of its instructions belong together. -/
structure LinesLookUp (s : Script) : Prop where
  /-- The lines of the instructions increase. -/
  increasing : s.instructions.Pairwise fun a b => a.line < b.line
  /-- They are lines of the script. -/
  numbered : ∀ i ∈ s.instructions, 1 ≤ i.line ∧ i.line ≤ s.lineCount
  /-- The index for a line is the least one of an instruction at or behind it. -/
  least : ∀ line, (s.fromLine line).Nonempty →
    IsLeast (s.fromLine line) (s.indexForLine line)
  /-- Where there is none, the index is the number of instructions. -/
  atEnd : ∀ line, s.fromLine line = ∅ → s.indexForLine line = s.length
  /-- The index grows with the line. -/
  monotone : Monotone s.indexForLine
  /-- The line of an instruction leads to its own index. -/
  own : ∀ index i, s.instructions[index]? = some i → s.indexForLine i.line = index
  /-- An index is reached exactly by the lines up to that of its instruction. -/
  reached : ∀ line index i, s.instructions[index]? = some i →
    (s.indexForLine line ≤ index ↔ line ≤ i.line)
  /-- A line behind the last one leads to the end. -/
  past : ∀ line, s.lineCount < line → s.indexForLine line = s.length
  /-- Every search by parts gives the index, and there is such a search. -/
  searched : ∀ line index, s.Finds line 0 s.length index ↔ index = s.indexForLine line

variable {s : Script} {line index : Nat} {i : Instruction}

/-! ### The least index -/

/-- The index for a line is the least one of an instruction at or behind it. -/
theorem indexForLine_isLeast (h : (s.fromLine line).Nonempty) :
    IsLeast (s.fromLine line) (s.indexForLine line) := by
  have hlower : s.indexForLine line ∈ lowerBounds (s.fromLine line) := by
    rintro index ⟨i, hi, hline⟩
    exact indexForLine_le hi hline
  refine ⟨?_, hlower⟩
  obtain ⟨index, i, hi, hline⟩ := h
  have hindex := (List.getElem?_eq_some_iff.mp hi).1
  exact exists_of_indexForLine_lt (Nat.lt_of_le_of_lt (indexForLine_le hi hline) hindex)

/-- Where no instruction lies at or behind a line, all of them are passed over. -/
theorem indexForLine_eq_length (h : s.fromLine line = ∅) : s.indexForLine line = s.length := by
  by_contra hne
  have hle := s.indexForLine_le_length line
  have hmem : s.indexForLine line ∈ s.fromLine line := exists_of_indexForLine_lt (by omega)
  rw [h] at hmem
  exact hmem

/-! ### One instruction tells on which side of it the index lies -/

section Sorted

variable (hsorted : s.instructions.Pairwise fun a b => a.line < b.line)

include hsorted

/-- Instructions further on lie further down. -/
theorem line_le_of_index_le {index' : Nat} {i' : Instruction}
    (hi : s.instructions[index]? = some i) (hi' : s.instructions[index']? = some i')
    (hle : index ≤ index') : i.line ≤ i'.line := by
  obtain ⟨hlt, rfl⟩ := List.getElem?_eq_some_iff.mp hi
  obtain ⟨hlt', rfl⟩ := List.getElem?_eq_some_iff.mp hi'
  rcases Nat.eq_or_lt_of_le hle with rfl | hless
  · exact Nat.le_refl _
  · exact Nat.le_of_lt (List.pairwise_iff_getElem.mp hsorted _ _ hlt hlt' hless)

/-- The index for a line is at most that of an instruction exactly if the line is at most that of
the instruction. -/
theorem indexForLine_le_iff (hi : s.instructions[index]? = some i) :
    s.indexForLine line ≤ index ↔ line ≤ i.line := by
  constructor
  · intro hle
    have hindex := (List.getElem?_eq_some_iff.mp hi).1
    obtain ⟨j, hj, hline⟩ := exists_of_indexForLine_lt (Nat.lt_of_le_of_lt hle hindex)
    exact Nat.le_trans hline (line_le_of_index_le hsorted hj hi hle)
  · exact indexForLine_le hi

/-- A search by parts keeps the index for the line between its bounds, so it can end nowhere
else. -/
theorem Finds.eq_indexForLine {low high : Nat} (h : s.Finds line low high index)
    (hlow : low ≤ s.indexForLine line) (hhigh : s.indexForLine line ≤ high) :
    index = s.indexForLine line := by
  induction h with
  | met index => omega
  -- A bound that moves past an index needs the instruction there on the same side of the line.
  | behind hi hline _ _ ih =>
    have hreached : s.indexForLine line ≤ _ ↔ line ≤ _ := indexForLine_le_iff hsorted hi
    exact ih (by omega) hhigh
  | inFront hi hline _ _ ih =>
    have hreached := (indexForLine_le_iff hsorted hi).mpr hline
    exact ih hlow (by omega)

/-- Wherever the bounds stand around the index for the line, the search can go on and ends. -/
theorem finds_indexForLine {low high : Nat} (hlow : low ≤ s.indexForLine line)
    (hhigh : s.indexForLine line ≤ high) (hlength : high ≤ s.length) :
    s.Finds line low high (s.indexForLine line) := by
  -- The search that tries the lower bound each time will do.
  induction hsteps : high - low generalizing low with
  | zero =>
    obtain rfl : low = high := by omega
    obtain rfl : low = s.indexForLine line := by omega
    exact .met _
  | succ steps ih =>
    have hlt : low < s.length := by omega
    have hi : s.instructions[low]? = some s.instructions[low] := List.getElem?_eq_getElem hlt
    have hreached : s.indexForLine line ≤ low ↔ line ≤ s.instructions[low].line :=
      indexForLine_le_iff hsorted hi
    by_cases hline : s.instructions[low].line < line
    · exact .behind hi hline (Nat.le_refl _) (ih (by omega) (by omega))
    · obtain heq : low = s.indexForLine line := by omega
      refine .inFront hi (by omega) (Nat.le_refl low) ?_
      rw [← heq]
      exact .met low

/-- Every search by parts ends at the index for the line, and one of them does. -/
theorem finds_iff : s.Finds line 0 s.length index ↔ index = s.indexForLine line := by
  have hle := s.indexForLine_le_length line
  constructor
  · intro h
    exact h.eq_indexForLine hsorted (Nat.zero_le _) hle
  · rintro rfl
    exact finds_indexForLine hsorted (Nat.zero_le _) hle (Nat.le_refl _)

end Sorted

end Script

/-- In every script that compiles, with whatever catalog, the lines of the instructions increase and
are lines of the script. So the index for a line, which may be any number, is the least one of an
instruction at or behind it, or the number of instructions if there is none, and it can be found by
any search by parts. It grows with the line, it leads from the line of an instruction back to that
instruction, and it is at most the index of an instruction exactly for the lines up to that of the
instruction. A line behind the last one leads to the end. -/
theorem Catalog.linesLookUp_of_compile {catalog : Catalog} {lines : List String} {script : Script}
    (h : catalog.compile lines = .ok script) : script.LinesLookUp := by
  have hsorted := sorted_of_compile h
  have hpast (line : Nat) (hline : script.lineCount < line) : script.fromLine line = ∅ := by
    rw [Set.eq_empty_iff_forall_notMem]
    rintro index ⟨i, hi, hle⟩
    have := (line_bounds_of_compile h (List.mem_of_getElem? hi)).2
    omega
  exact {
    increasing := hsorted
    numbered := fun i hi => line_bounds_of_compile h hi
    least := fun line => Script.indexForLine_isLeast
    atEnd := fun line => Script.indexForLine_eq_length
    monotone := fun line line' hle => script.indexForLine_mono hle
    own := fun index i hi => Script.indexForLine_line hsorted hi
    reached := fun line index i hi => Script.indexForLine_le_iff hsorted hi
    past := fun line hline => Script.indexForLine_eq_length (hpast line hline)
    searched := fun line index => Script.finds_iff hsorted }

/-- Comments, blank lines and a last line that holds no command. -/
theorem Catalog.linesLookUp_of_compile_gaps : ∃ script,
    builtin.compile ["", "# a", "Stop", "", " Wait 1 # b", "MouseClick", ""] = .ok script ∧
      script.LinesLookUp ∧
      (List.range 9).map script.indexForLine = [0, 0, 0, 0, 1, 1, 2, 3, 3] := by
  have hcompile : builtin.compile ["", "# a", "Stop", "", " Wait 1 # b", "MouseClick", ""] =
      .ok ⟨[⟨3, [], .stop⟩, ⟨5, ["1"], .wait (.ofMillis 1) (.ofMillis 1)⟩,
        ⟨6, [], .mouseClick .left⟩], 7⟩ := by
    with_unfolding_all rfl
  exact ⟨_, hcompile, linesLookUp_of_compile hcompile, by decide⟩

end InputScript
