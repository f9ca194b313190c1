import InputScript.Script.Compile
import Mathlib.Data.List.Forall2

/-!
# `InputScript.Proofs.Script.Numbering`: lines, their numbers and their instructions

A script is written as a list of lines, which are numbered from one. `Holds` says what a
numbered line holds, straight from its text. The theorems tie the three views of a script to
it: the text, the command lines it is split into, and the instructions.

* `mem_commandLines_iff`: the command lines are the lines that hold a command.
* `pairwise_number_commandLines`: their numbers increase.
* `source_of_compile`: instructions and command lines correspond one to one.
* `pairwise_line_of_forall₂`: the lines of instructions increase.
* `getElem?_indexForLine`: the index for a line selects the first instruction at or after it.
* `indexForLine_mono`: the index grows with the line.
* `indexForLine_line`: the index for the line of an instruction is its own index.
-/

set_option autoImplicit false

namespace InputScript

/-- The text holds, on the line with a number, a command of a name with parameters. -/
def Holds (lines : List String) (number : Nat) (name : String) (params : List String) : Prop :=
  0 < number ∧ (lines[number - 1]?).map LineContent.read = some (.command name params)

namespace Source

/-- The numbers of command lines start at that of the first line and end before the line
after the last. -/
theorem number_mem_commandLines {number : Nat} {lines : List String} {cs : List SourceLine}
    (h : commandLines number lines = .ok cs) :
    ∀ c ∈ cs, number ≤ c.number ∧ c.number < number + lines.length := by
  induction lines generalizing number cs with
  | nil =>
    cases h
    intro c hc
    cases hc
  | cons text rest ih =>
    rw [commandLines] at h
    -- Either the line holds no command, or its command comes before those of the rest.
    split at h
    · intro c hc
      have hrest := ih h c hc
      rw [List.length_cons]
      omega
    · cases h
    · split at h
      · cases h
      · rename_i hrest
        cases h
        intro c hc
        rw [List.length_cons]
        rcases List.mem_cons.mp hc with rfl | hc
        · exact ⟨Nat.le_refl number, by simp only; omega⟩
        · have := ih hrest c hc
          omega

/-- The numbers of command lines increase. -/
theorem pairwise_number_commandLines {number : Nat} {lines : List String}
    {cs : List SourceLine} (h : commandLines number lines = .ok cs) :
    cs.Pairwise fun a b => a.number < b.number := by
  induction lines generalizing number cs with
  | nil =>
    cases h
    exact List.Pairwise.nil
  | cons text rest ih =>
    rw [commandLines] at h
    split at h
    · exact ih h
    · cases h
    · split at h
      · cases h
      · rename_i hrest
        cases h
        refine List.Pairwise.cons ?_ (ih hrest)
        intro c hc
        have := number_mem_commandLines hrest c hc
        simp only
        omega

/-- The command lines are the lines that hold a command. -/
theorem mem_commandLines_iff {number : Nat} {lines : List String} {cs : List SourceLine}
    (h : commandLines number lines = .ok cs) (c : SourceLine) :
    c ∈ cs ↔ number ≤ c.number ∧
      (lines[c.number - number]?).map LineContent.read = some (.command c.name c.params) := by
  induction lines generalizing number cs with
  | nil =>
    cases h
    simp
  | cons text rest ih =>
    -- A later line has the same text in the list without the first one.
    have hlater : number + 1 ≤ c.number →
        (text :: rest)[c.number - number]? = rest[c.number - (number + 1)]? := by
      intro hle
      rw [show c.number - number = c.number - (number + 1) + 1 by omega,
        List.getElem?_cons_succ]
    rw [commandLines] at h
    split at h
    · -- The first line holds no command, so no member has its number.
      rename_i hread
      rw [ih h]
      constructor
      · rintro ⟨hle, hc⟩
        exact ⟨by omega, by rw [hlater hle]; exact hc⟩
      · rintro ⟨hle, hc⟩
        by_cases heq : c.number = number
        · rw [heq, Nat.sub_self, List.getElem?_cons_zero, Option.map_some, hread] at hc
          cases hc
        · have hle' : number + 1 ≤ c.number := by omega
          exact ⟨hle', by rw [← hlater hle']; exact hc⟩
    · cases h
    · rename_i name params hread
      split at h
      · cases h
      · rename_i hrest
        cases h
        rw [List.mem_cons, ih hrest]
        constructor
        · rintro (rfl | ⟨hle, hc⟩)
          · exact ⟨Nat.le_refl _, by simp [hread]⟩
          · exact ⟨by omega, by rw [hlater hle]; exact hc⟩
        · rintro ⟨hle, hc⟩
          by_cases heq : c.number = number
          · left
            rw [heq, Nat.sub_self, List.getElem?_cons_zero, Option.map_some, hread] at hc
            cases c
            simp_all
          · have hle' : number + 1 ≤ c.number := by omega
            exact .inr ⟨hle', by rw [← hlater hle']; exact hc⟩

/-- Splitting a text gives its command lines and its number of lines. -/
theorem commandLines_of_ofLines {lines : List String} {source : Source}
    (h : ofLines lines = .ok source) :
    commandLines 1 lines = .ok source.lines ∧ source.lineCount = lines.length := by
  unfold ofLines at h
  split at h
  · cases h
  · rename_i hlines
    cases h
    exact ⟨hlines, rfl⟩

/-- The command lines of a text are the lines that hold a command. -/
theorem mem_lines_iff {lines : List String} {source : Source} (h : ofLines lines = .ok source)
    (c : SourceLine) : c ∈ source.lines ↔ Holds lines c.number c.name c.params :=
  mem_commandLines_iff (commandLines_of_ofLines h).1 c

/-- The number of a command line lies between one and the number of lines. -/
theorem number_le_lineCount {lines : List String} {source : Source}
    (h : ofLines lines = .ok source) {c : SourceLine} (hc : c ∈ source.lines) :
    1 ≤ c.number ∧ c.number ≤ source.lineCount := by
  obtain ⟨hcs, hcount⟩ := commandLines_of_ofLines h
  have := number_mem_commandLines hcs c hc
  omega

end Source

namespace Catalog

/-- Instructions and command lines correspond one to one. -/
theorem forall₂_of_compileLines {catalog : Catalog} {source : Source}
    {cs : List SourceLine} {is : List Instruction} (h : catalog.compileLines source cs = .ok is) :
    List.Forall₂ (fun c i => catalog.compileLine source c = .ok i) cs is := by
  induction cs generalizing is with
  | nil =>
    cases h
    exact List.Forall₂.nil
  | cons c rest ih =>
    rw [compileLines] at h
    split at h
    · cases h
    · rename_i i hi
      split at h
      · cases h
      · rename_i js hjs
        cases h
        exact List.Forall₂.cons hi (ih hjs)

/-- A script that compiles was split, and its instructions come from its command lines. -/
theorem source_of_compile {catalog : Catalog} {lines : List String} {script : Script}
    (h : catalog.compile lines = .ok script) :
    ∃ source, Source.ofLines lines = .ok source ∧ script.lineCount = lines.length ∧
      List.Forall₂ (fun c i => catalog.compileLine source c = .ok i)
        source.lines script.instructions := by
  unfold compile at h
  split at h
  · cases h
  · rename_i source hsource
    split at h
    · cases h
    · rename_i is his
      cases h
      exact ⟨source, hsource, (Source.commandLines_of_ofLines hsource).2,
        forall₂_of_compileLines his⟩

/-- A member of one of two corresponding lists has a partner in the other. -/
theorem exists_of_forall₂ {α β : Type} {R : α → β → Prop} {as : List α} {bs : List β}
    (h : List.Forall₂ R as bs) {a : α} (ha : a ∈ as) : ∃ b ∈ bs, R a b := by
  induction h with
  | nil => cases ha
  | cons hab _ ih =>
    rcases List.mem_cons.mp ha with rfl | ha
    · exact ⟨_, List.mem_cons_self, hab⟩
    · obtain ⟨b, hb, hr⟩ := ih ha
      exact ⟨b, List.mem_cons_of_mem _ hb, hr⟩

/-- The lines of instructions increase when these come from the command lines of a text. -/
theorem pairwise_line_of_forall₂ {catalog : Catalog} {lines : List String} {source : Source}
    {is : List Instruction} (hsource : Source.ofLines lines = .ok source)
    (hpairs : List.Forall₂ (fun c i => catalog.compileLine source c = .ok i)
      source.lines is) :
    is.Pairwise fun a b => a.line < b.line := by
  have hsorted := Source.pairwise_number_commandLines (Source.commandLines_of_ofLines hsource).1
  -- Instructions have the lines of their command lines, which increase.
  have hlines : is.map Instruction.line = source.lines.map SourceLine.number := by
    symm
    rw [← List.forall₂_eq_eq_eq, List.forall₂_map_left_iff, List.forall₂_map_right_iff]
    exact hpairs.imp fun c i hi => (line_of_compileLine hi).symm
  rw [← List.pairwise_map (f := SourceLine.number) (R := (· < ·)), ← hlines] at hsorted
  exact List.pairwise_map.mp hsorted

/-- The lines of the instructions of a script that compiles increase. -/
theorem sorted_of_compile {catalog : Catalog} {lines : List String} {script : Script}
    (h : catalog.compile lines = .ok script) :
    script.instructions.Pairwise fun a b => a.line < b.line := by
  obtain ⟨source, hsource, -, hpairs⟩ := source_of_compile h
  exact pairwise_line_of_forall₂ hsource hpairs

/-- The instructions of a script that compiles lie on its lines. -/
theorem line_bounds_of_compile {catalog : Catalog} {lines : List String} {script : Script}
    (h : catalog.compile lines = .ok script) {i : Instruction} (hi : i ∈ script.instructions) :
    1 ≤ i.line ∧ i.line ≤ script.lineCount := by
  obtain ⟨source, hsource, hcount, hpairs⟩ := source_of_compile h
  obtain ⟨c, hc, hci⟩ := exists_of_forall₂ hpairs.flip hi
  have hbounds := Source.number_le_lineCount hsource hc
  rwa [(Source.commandLines_of_ofLines hsource).2, ← hcount, ← line_of_compileLine hci] at hbounds

end Catalog

namespace Script

/-- What is left of a script from an index on begins with the instruction at that index. -/
theorem drop_eq_cons_iff {s : Script} {index : Nat} {i : Instruction}
    {rest : List Instruction} : s.instructions.drop index = i :: rest ↔
      s.instructions[index]? = some i ∧ s.instructions.drop (index + 1) = rest := by
  constructor
  · intro h
    constructor
    · rw [← List.head?_drop, h, List.head?_cons]
    · rw [← List.tail_drop, h, List.tail_cons]
  · rintro ⟨hi, rfl⟩
    obtain ⟨hlt, rfl⟩ := List.getElem?_eq_some_iff.mp hi
    exact List.drop_eq_getElem_cons hlt

/-- The index for a line, given by what lies before and behind it. -/
theorem indexForLine_eq {s : Script} {line index : Nat} (hle : index ≤ s.length)
    (hbefore : ∀ i ∈ s.instructions.take index, i.line < line)
    (hat : ∀ i, s.instructions[index]? = some i → line ≤ i.line) :
    s.indexForLine line = index := by
  -- All of the first instructions are passed over, and none of the others.
  have hdrop : (s.instructions.drop index).takeWhile (fun i => decide (i.line < line)) = [] := by
    cases hrest : s.instructions.drop index with
    | nil => rfl
    | cons i rest =>
      have hi : s.instructions[index]? = some i := by
        rw [← List.head?_drop, hrest, List.head?_cons]
      have hline := hat i hi
      rw [List.takeWhile_cons_of_neg]
      simp only [decide_eq_true_eq]
      omega
  rw [indexForLine, ← List.take_append_drop index s.instructions, List.takeWhile_append_of_pos,
    hdrop, List.append_nil, List.length_take]
  · exact Nat.min_eq_left hle
  · intro i hi
    exact decide_eq_true (hbefore i hi)

/-- The index for a line selects the first instruction at or after it. -/
theorem getElem?_indexForLine (s : Script) (line : Nat) :
    s.instructions[s.indexForLine line]? =
      s.instructions.find? fun i => decide (line ≤ i.line) := by
  have hfirst : ∀ is : List Instruction,
      is[(is.takeWhile fun i => decide (i.line < line)).length]? =
        is.find? fun i => decide (line ≤ i.line) := by
    intro is
    induction is with
    | nil => rfl
    | cons i rest ih =>
      by_cases h : i.line < line
      · rw [List.takeWhile_cons_of_pos (by simpa using h), List.length_cons,
          List.getElem?_cons_succ, ih, List.find?_cons_of_neg]
        simp only [decide_eq_true_eq]
        omega
      · rw [List.takeWhile_cons_of_neg (by simpa using h), List.length_nil,
          List.getElem?_cons_zero, List.find?_cons_of_pos]
        simp only [decide_eq_true_eq]
        omega
  exact hfirst s.instructions

/-- An instruction at or behind a line is not passed over. -/
theorem indexForLine_le {s : Script} {line index : Nat} {i : Instruction}
    (hi : s.instructions[index]? = some i) (hline : line ≤ i.line) :
    s.indexForLine line ≤ index := by
  by_contra hlt
  obtain ⟨hindex, rfl⟩ := List.getElem?_eq_some_iff.mp hi
  have hmem : s.instructions[index] ∈ s.instructions.take (s.indexForLine line) :=
    List.mem_take_iff_getElem.mpr ⟨index, by omega, rfl⟩
  have hpassed := line_lt_of_mem_take hmem
  omega

/-- Where the index for a line is not the end, there is an instruction at or behind the line. -/
theorem exists_of_indexForLine_lt {s : Script} {line : Nat} (h : s.indexForLine line < s.length) :
    ∃ i, s.instructions[s.indexForLine line]? = some i ∧ line ≤ i.line := by
  have hi := List.getElem?_eq_getElem h
  have hfind := hi
  rw [getElem?_indexForLine] at hfind
  exact ⟨_, hi, by simpa using List.find?_some hfind⟩

/-- The index grows with the line. -/
theorem indexForLine_mono (s : Script) {line line' : Nat} (h : line ≤ line') :
    s.indexForLine line ≤ s.indexForLine line' := by
  rcases Nat.lt_or_eq_of_le (s.indexForLine_le_length line') with hlt | heq
  · obtain ⟨i, hi, hline⟩ := exists_of_indexForLine_lt hlt
    exact indexForLine_le hi (Nat.le_trans h hline)
  · rw [heq]
    exact s.indexForLine_le_length line

section Sorted

variable {s : Script} (hsorted : s.instructions.Pairwise fun a b => a.line < b.line)

include hsorted

/-- The index for the line of an instruction is its own index. -/
theorem indexForLine_line {index : Nat} {i : Instruction}
    (hi : s.instructions[index]? = some i) : s.indexForLine i.line = index := by
  obtain ⟨hlt, rfl⟩ := List.getElem?_eq_some_iff.mp hi
  refine indexForLine_eq (Nat.le_of_lt hlt) ?_ ?_
  · intro j hj
    obtain ⟨k, hk, rfl⟩ := List.mem_take_iff_getElem.mp hj
    exact List.pairwise_iff_getElem.mp hsorted k index _ hlt (by omega)
  · intro j hj
    rw [hi] at hj
    cases hj
    exact Nat.le_refl _

/-- The index for the line after an instruction is the next index. -/
theorem indexForLine_line_succ {index : Nat} {i : Instruction}
    (hi : s.instructions[index]? = some i) : s.indexForLine (i.line + 1) = index + 1 := by
  obtain ⟨hlt, rfl⟩ := List.getElem?_eq_some_iff.mp hi
  refine indexForLine_eq hlt ?_ ?_
  · intro j hj
    obtain ⟨k, hk, rfl⟩ := List.mem_take_iff_getElem.mp hj
    by_cases heq : k = index
    · subst heq
      omega
    · have := List.pairwise_iff_getElem.mp hsorted k index (by omega) hlt (by omega)
      omega
  · intro j hj
    obtain ⟨hlt', rfl⟩ := List.getElem?_eq_some_iff.mp hj
    exact List.pairwise_iff_getElem.mp hsorted index (index + 1) hlt hlt' (by omega)

end Sorted

end Script

end InputScript
