import InputScript.Proofs.Script.Inserted
import InputScript.Proofs.Source.Slicing

/-!
# `InputScript.Proofs.Script.LineByLine`: which texts compile, and what they compile to

A text compiles as a whole or not at all. `Catalog.Yields` says of a single line what the compiler
asks of it, and which instruction the line comes to if it has all of that. A text compiles when each
of its lines is idle or comes to an instruction, and the script then holds these instructions, one
for each line that is not idle, in the order of the lines.

A jump may lead to any line, so a line is prepared against all lines, and it can be told whether it
is sound only once all of them are split (`Source.legible`).

* `HoldsCommand`, `exists_holdsCommand`: the command on a line, read from left to right.
* `Yields.unique`: a line comes to one instruction only.
* `Yields.exists_iff_isSound`: it comes to one when it has all that is asked of it.
* `Yields.not_fault`: a line that comes to an instruction is not at fault.
* `forall₂_of_compile`: the lines of a text that compiles come to its instructions.
* `compile_line_by_line`: the whole statement, for every catalog.
-/

set_option autoImplicit false

namespace InputScript

open Text

/-! ### The command on a line -/

/-- What is left of a line without the blanks around it and without its comment. -/
def keptOf (text : String) : List Char :=
  trim (beforeComment false (trim text.toList))

/-- A line holds a command. Its name ends at the first blank, and behind it there are the items of
its parameters. If `isOpen`, a double quote that has no end follows them. -/
inductive HoldsCommand (text name : String) (is : List Item) (isOpen : Bool) : Prop
  | intro {args : List Char} (notIdle : ¬ IsIdle text) (kept : keptOf text = name.toList ++ args)
      (named : ∀ c ∈ name.toList, isBlank c = false) (atBlank : AtBlank args)
      (reads : Reads args is isOpen)

variable {text name : String} {is : List Item} {isOpen : Bool}

/-- A line that is not idle is split as far as its comment. -/
theorem read_of_not_isIdle (h : ¬ IsIdle text) :
    LineContent.read text = .ofKept (keptOf text) := by
  rw [← read_eq_nothing_iff, LineContent.read_eq_nothing, not_or] at h
  exact LineContent.read_eq h.1 h.2

/-- What is read of a line that holds a command. -/
theorem HoldsCommand.read_eq (h : HoldsCommand text name is isOpen) :
    LineContent.read text =
      if isOpen then .unclosed name else .command name (is.map Item.value) := by
  obtain ⟨notIdle, kept, named, atBlank, reads⟩ := h
  rw [read_of_not_isIdle notIdle, kept, LineContent.ofKept_append named atBlank, reads.items_eq,
    String.ofList_toList]
  cases isOpen <;> rfl

/-- A line that is not idle holds a command. -/
theorem exists_holdsCommand (h : ¬ IsIdle text) :
    ∃ name is isOpen, HoldsCommand text name is isOpen := by
  obtain ⟨is, isOpen, hreads⟩ := exists_reads ((keptOf text).dropWhile fun c => !isBlank c)
  refine ⟨String.ofList ((keptOf text).takeWhile fun c => !isBlank c), is, isOpen,
    .intro h ?_ ?_ (atBlank_dropWhile _) hreads⟩
  · rw [String.toList_ofList, List.takeWhile_append_dropWhile]
  · intro c hc
    rw [String.toList_ofList] at hc
    simpa using List.all_eq_true.mp List.all_takeWhile c hc

/-- A command is read off a line just if the line holds it, all its quotes being closed. -/
theorem read_eq_command_iff {params : List String} :
    LineContent.read text = .command name params ↔
      ∃ is, HoldsCommand text name is false ∧ params = is.map Item.value := by
  constructor
  · intro hread
    have hidle : ¬ IsIdle text := by
      rw [← read_eq_nothing_iff, hread]
      simp
    obtain ⟨name', is, isOpen, h⟩ := exists_holdsCommand hidle
    rw [h.read_eq] at hread
    cases isOpen with
    | true => cases hread
    | false =>
      cases hread
      exact ⟨is, h, rfl⟩
  · rintro ⟨is, h, rfl⟩
    exact h.read_eq

/-- The lines of a text that hold a command, with their numbers. The first line of the text has the
given number. -/
def commandTexts (first : Nat) (lines : List String) : List (String × Nat) :=
  (lines.zipIdx first).filter fun p => ¬ IsIdle p.1

namespace Source

/-- The command lines come from the lines of the text that hold a command, one from each. -/
theorem forall₂_of_commandLines {number : Nat} {lines : List String} {cs : List SourceLine}
    (h : commandLines number lines = .ok cs) :
    List.Forall₂
      (fun p c => c.number = p.2 ∧ LineContent.read p.1 = .command c.name c.params)
      (commandTexts number lines) cs := by
  induction lines generalizing number cs with
  | nil =>
    cases h
    exact .nil
  | cons text rest ih =>
    rw [commandLines] at h
    rw [commandTexts, List.zipIdx_cons]
    split at h
    · rename_i hread
      rw [List.filter_cons_of_neg (by simp [(read_eq_nothing_iff text).mp hread])]
      exact ih h
    · cases h
    · rename_i name params hread
      have hidle : ¬ IsIdle text := by
        rw [← read_eq_nothing_iff, hread]
        simp
      split at h
      · cases h
      · rename_i hrest
        cases h
        rw [List.filter_cons_of_pos (by simpa using hidle)]
        exact .cons ⟨rfl, hread⟩ (ih hrest)

end Source

namespace Catalog

/-- An entry of a catalog has a name, but for the case of letters, and no entry before it has. -/
structure IsEntryFor (catalog : Catalog) (name : String) (d : Descriptor) : Prop where
  sameName : sameName d.name name = true
  first : ∃ before after, catalog.entries = before ++ d :: after ∧
    ∀ other ∈ before, Text.sameName other.name name = false

/-- What a line of a text comes to. Its quotes are closed, the catalog has an entry for its command,
the entry takes as many parameters as there are, and preparing them against the whole text succeeds.
The instruction carries the number of the line. -/
inductive Yields (catalog : Catalog) (lines : List String) (text : String) (number : Nat) :
    Instruction → Prop where
  | intro {name : String} {is : List Item} {d : Descriptor} {p : Prepared}
      (closed : HoldsCommand text name is false)
      (known : catalog.IsEntryFor name d)
      (count : d.arity.min ≤ is.length ∧ is.length ≤ d.arity.max)
      (prepared : d.kind.prepare ⟨number, is.map Item.value, Source.legible lines⟩ = .ok p) :
      Yields catalog lines text number ⟨number, p.params, p.command⟩

variable {catalog : Catalog} {lines : List String}

/-- What the compiler asks of a line. Its quotes are closed, the catalog knows its command, and the
entry takes as many parameters as there are and prepares them against the whole text. -/
inductive IsSound (catalog : Catalog) (lines : List String) (text : String) (number : Nat) : Prop
  | intro {name : String} {is : List Item} (closed : HoldsCommand text name is false)
      (known : ∃ d ∈ catalog.entries, sameName d.name name = true)
      (count : ∀ d, catalog.IsEntryFor name d →
        d.arity.min ≤ is.length ∧ is.length ≤ d.arity.max)
      (prepared : ∀ d, catalog.IsEntryFor name d →
        ∃ p, d.kind.prepare ⟨number, is.map Item.value, Source.legible lines⟩ = .ok p)

/-- A name is looked up by its first entry. -/
theorem find?_eq_some_iff {name : String} {d : Descriptor} :
    catalog.find? name = some d ↔ catalog.IsEntryFor name d := by
  rw [find?, List.find?_eq_some_iff_append]
  simp only [Bool.not_eq_true']
  exact ⟨fun h => ⟨h.1, h.2⟩, fun h => ⟨h.sameName, h.first⟩⟩

/-- A catalog has an entry for a name that it knows. -/
theorem exists_isEntryFor_iff {name : String} :
    (∃ d, catalog.IsEntryFor name d) ↔ ∃ d ∈ catalog.entries, sameName d.name name = true := by
  simp only [← find?_eq_some_iff, ← Option.isSome_iff_exists, find?, List.find?_isSome]

namespace Yields

variable {text : String} {number : Nat} {i : Instruction}

/-- A line comes to an instruction when the command on it compiles. -/
theorem iff_compileLine {name : String} {params : List String}
    (hread : LineContent.read text = .command name params) :
    catalog.Yields lines text number i ↔
      catalog.compileLine (Source.legible lines) ⟨number, name, params⟩ = .ok i := by
  rw [compileLine_ok_iff]
  constructor
  · rintro ⟨closed, known, count, prepared⟩
    have hclosed := closed.read_eq
    rw [hread] at hclosed
    cases hclosed
    refine ⟨_, _, find?_eq_some_iff.mpr known, (Arity.accepts_iff _ _).mpr ?_, prepared, rfl⟩
    rwa [List.length_map]
  · rintro ⟨d, p, hd, hcount, hp, rfl⟩
    obtain ⟨is, closed, rfl⟩ := read_eq_command_iff.mp hread
    refine ⟨closed, find?_eq_some_iff.mp hd, ?_, hp⟩
    rwa [Arity.accepts_iff, List.length_map] at hcount

/-- A line that comes to an instruction holds a command. -/
theorem exists_command (h : catalog.Yields lines text number i) :
    ∃ name params, LineContent.read text = .command name params := by
  obtain ⟨closed, -, -, -⟩ := h
  exact ⟨_, _, closed.read_eq⟩

/-- A line comes to one instruction only. -/
theorem unique {j : Instruction} (hi : catalog.Yields lines text number i)
    (hj : catalog.Yields lines text number j) : i = j := by
  obtain ⟨name, params, hread⟩ := hi.exists_command
  rw [iff_compileLine hread] at hi hj
  exact Except.ok.inj (hi.symm.trans hj)

/-- A line comes to an instruction just if it has all that is asked of it. -/
theorem exists_iff_isSound :
    (∃ i, catalog.Yields lines text number i) ↔ catalog.IsSound lines text number := by
  constructor
  · rintro ⟨i, closed, known, count, prepared⟩
    -- A name has one entry that is the first.
    have hone {d' : Descriptor} (h : catalog.IsEntryFor _ d') : d' = _ :=
      Option.some.inj ((find?_eq_some_iff.mpr h).symm.trans (find?_eq_some_iff.mpr known))
    refine ⟨closed, exists_isEntryFor_iff.mp ⟨_, known⟩, ?_, ?_⟩
    · intro d' h
      rwa [hone h]
    · intro d' h
      rw [hone h]
      exact ⟨_, prepared⟩
  · rintro ⟨closed, known, count, prepared⟩
    obtain ⟨d, hd⟩ := exists_isEntryFor_iff.mpr known
    obtain ⟨p, hp⟩ := prepared d hd
    exact ⟨_, closed, hd, count d hd, hp⟩

/-- A line that comes to an instruction is not at fault. -/
theorem not_fault (h : catalog.Yields lines text number i)
    (htext : lines[number - 1]? = some text) (e : CompileError) :
    ¬ catalog.Fault lines number e := by
  obtain ⟨name, params, hread⟩ := h.exists_command
  rw [iff_compileLine hread] at h
  intro hfault
  cases hfault with
  | openQuote other hopen =>
    have hother := hopen.2
    rw [htext, Option.map_some, hread] at hother
    cases hother
  | refused other params' _ hholds hrefused =>
    have hother := hholds.2
    rw [htext, Option.map_some, hread] at hother
    cases hother
    rw [compileLine_error_iff.mpr hrefused] at h
    cases h

end Yields

/-- A line at fault is a line of the text, and it is not idle. -/
theorem Fault.exists_text {number : Nat} {e : CompileError} (h : catalog.Fault lines number e) :
    ∃ text, 1 ≤ number ∧ lines[number - 1]? = some text ∧ ¬ IsIdle text := by
  have hread : ∃ content, content ≠ .nothing ∧ 0 < number ∧
      (lines[number - 1]?).map LineContent.read = some content := by
    cases h with
    | openQuote name hopen => exact ⟨_, by simp, hopen⟩
    | refused name params _ hholds _ => exact ⟨_, by simp, hholds⟩
  obtain ⟨content, hcontent, hpos, hline⟩ := hread
  obtain ⟨text, htext, rfl⟩ := Option.map_eq_some_iff.mp hline
  rw [ne_eq, read_eq_nothing_iff] at hcontent
  exact ⟨text, hpos, htext, hcontent⟩

/-- Corresponding lists correspond through a third one. -/
theorem forall₂_comp {α β γ : Type} {R : α → β → Prop} {S : β → γ → Prop} {as : List α}
    {bs : List β} {cs : List γ} (hR : List.Forall₂ R as bs) (hS : List.Forall₂ S bs cs) :
    List.Forall₂ (Relation.Comp R S) as cs := by
  induction hR generalizing cs with
  | nil =>
    cases hS
    exact .nil
  | cons hab _ ih =>
    cases hS with
    | cons hbc hrest => exact .cons ⟨_, hab, hbc⟩ (ih hrest)

/-- The lines of a text that compiles come to the instructions of its script. -/
theorem forall₂_of_compile {script : Script} (h : catalog.compile lines = .ok script) :
    List.Forall₂ (fun p i => catalog.Yields lines p.1 p.2 i) (commandTexts 1 lines)
      script.instructions := by
  obtain ⟨source, hsource, -, hpairs⟩ := source_of_compile h
  have hlines := Source.forall₂_of_commandLines (Source.commandLines_of_ofLines hsource).1
  refine (forall₂_comp hlines hpairs).imp ?_
  rintro ⟨text, number⟩ i ⟨⟨_, name, params⟩, ⟨rfl, hread⟩, hi⟩
  rw [Yields.iff_compileLine hread, Source.legible_of_ofLines hsource]
  exact hi

/-- A text whose lines all are idle or come to an instruction compiles. -/
theorem exists_compile_of_yields
    (h : ∀ text number, (text, number) ∈ lines.zipIdx 1 → ¬ IsIdle text →
      ∃ i, catalog.Yields lines text number i) :
    ∃ script, catalog.compile lines = .ok script := by
  cases hcompile : catalog.compile lines with
  | ok script => exact ⟨script, rfl⟩
  | error e =>
    -- The line that is reported is at fault, but it is sound.
    obtain ⟨number, hdecides⟩ := decidingFault_of_compile hcompile
    obtain ⟨text, hpos, htext, hidle⟩ := hdecides.fault.exists_text
    obtain ⟨i, hi⟩ := h text number
      (List.mk_mem_zipIdx_iff_le_and_getElem?_sub.mpr ⟨hpos, htext⟩) hidle
    exact absurd hdecides.fault (hi.not_fault htext e)

/-- A script is the one that a text compiles to when it has as many lines as the text, and its
instructions are what the lines come to. -/
theorem compile_ok_iff {script : Script} : catalog.compile lines = .ok script ↔
    script.lineCount = lines.length ∧
      List.Forall₂ (fun p i => catalog.Yields lines p.1 p.2 i) (commandTexts 1 lines)
        script.instructions := by
  constructor
  · intro h
    obtain ⟨-, -, hcount, -⟩ := source_of_compile h
    exact ⟨hcount, forall₂_of_compile h⟩
  · rintro ⟨hcount, hyields⟩
    obtain ⟨other, hother⟩ : ∃ other, catalog.compile lines = .ok other := by
      apply exists_compile_of_yields
      intro text number hmem hidle
      obtain ⟨i, -, hi⟩ := exists_of_forall₂ hyields
        (List.mem_filter.mpr ⟨hmem, by simpa using hidle⟩)
      exact ⟨i, hi⟩
    -- Each line comes to one instruction only, so the two scripts are the same.
    obtain ⟨-, -, hcount', -⟩ := source_of_compile hother
    have hsame : other.instructions = script.instructions :=
      List.right_unique_forall₂' (fun _ _ _ hi hj => hi.unique hj) (forall₂_of_compile hother)
        hyields
    cases script
    cases other
    simp_all

/-- Compiling is all or nothing, and it goes line by line. Under every catalog, a text compiles when
each of its lines is idle or has all that is asked of it. It compiles to the script of the
instructions to which these lines come: one for each line that is not idle, in the order of the
lines and with their numbers. And a text that does not compile has the fault that is reported, on
the line that is reported, which comes to no instruction. -/
theorem compile_line_by_line (catalog : Catalog) (lines : List String) :
    ((∃ script, catalog.compile lines = .ok script) ↔
      ∀ text number, (text, number) ∈ lines.zipIdx 1 → ¬ IsIdle text →
        catalog.IsSound lines text number) ∧
    (∀ script, catalog.compile lines = .ok script ↔
      script.lineCount = lines.length ∧
        List.Forall₂ (fun p i => catalog.Yields lines p.1 p.2 i) (commandTexts 1 lines)
          script.instructions) ∧
    ∀ e, catalog.compile lines = .error e →
      ∃ number text, e.line? = some number ∧ (text, number) ∈ lines.zipIdx 1 ∧
        catalog.Fault lines number e ∧ ∀ i, ¬ catalog.Yields lines text number i := by
  simp only [← Yields.exists_iff_isSound]
  refine ⟨⟨?_, exists_compile_of_yields⟩, fun script => compile_ok_iff, ?_⟩
  · rintro ⟨script, h⟩ text number hmem hidle
    obtain ⟨i, -, hi⟩ := exists_of_forall₂ (forall₂_of_compile h)
      (List.mem_filter.mpr ⟨hmem, by simpa using hidle⟩)
    exact ⟨i, hi⟩
  · intro e h
    obtain ⟨number, hdecides⟩ := decidingFault_of_compile h
    obtain ⟨text, hpos, htext, -⟩ := hdecides.fault.exists_text
    exact ⟨number, text, hdecides.line,
      List.mk_mem_zipIdx_iff_le_and_getElem?_sub.mpr ⟨hpos, htext⟩, hdecides.fault,
      fun i hi => hi.not_fault htext e hdecides.fault⟩

end Catalog

end InputScript
