import InputScript.Proofs.Script.Numbering
import Mathlib.Order.Bounds.Basic

/-!
# `InputScript.Proofs.Script.Faults`: which fault of a script is reported

A line of a script can be at fault in four ways: a quote is open, the command is unknown, it
has the wrong number of parameters, or it cannot be prepared. `Fault` says so line by line,
straight from the text, whatever the other lines are like.

All lines are split before any command is looked up. An open quote therefore wins over every
other fault, also over one that comes before it, and only among faults of one of the two kinds
does the first line decide.

* `commandLines_error_iff`: the first open quote ends the splitting of lines.
* `compileLines_error_iff`: the first refused command ends the compilation of commands.
* `compile_error_iff`: exactly the deciding fault is reported, under every catalog.
* `late_open_quote_wins`: the reported line need not be the first that is at fault.
-/

set_option autoImplicit false

namespace InputScript

/-- A line of the text holds a command of this name, and a quote is open in its parameters. -/
def IsOpenLine (lines : List String) (number : Nat) (name : String) : Prop :=
  0 < number ∧ (lines[number - 1]?).map LineContent.read = some (.unclosed name)

namespace Source

/-- The command lines of a text whose first line has the given number. Lines with an open
quote are passed over. -/
def legibleLines (number : Nat) : List String → List SourceLine
  | [] => []
  | line :: rest =>
    match LineContent.read line with
    | .command name params => ⟨number, name, params⟩ :: legibleLines (number + 1) rest
    | _ => legibleLines (number + 1) rest

/-- The whole script as far as it can be split. -/
def legible (lines : List String) : Source :=
  ⟨legibleLines 1 lines, lines.length⟩

/-- Where no quote is open, everything can be split. -/
theorem legibleLines_of_commandLines {number : Nat} {lines : List String}
    {cs : List SourceLine} (h : commandLines number lines = .ok cs) :
    legibleLines number lines = cs := by
  induction lines generalizing number cs with
  | nil =>
    cases h
    rfl
  | cons text rest ih =>
    rw [commandLines] at h
    rw [legibleLines]
    split at h
    · rename_i hread
      rw [hread]
      exact ih h
    · cases h
    · rename_i name params hread
      rw [hread]
      split at h
      · cases h
      · rename_i hrest
        cases h
        exact congrArg (_ :: ·) (ih hrest)

/-- A script that can be split is legible as a whole. -/
theorem legible_of_ofLines {lines : List String} {source : Source}
    (h : ofLines lines = .ok source) : legible lines = source := by
  obtain ⟨hlines, hcount⟩ := commandLines_of_ofLines h
  rw [legible, legibleLines_of_commandLines hlines, ← hcount]

/-- The first line with an open quote, and the name of its command. -/
structure OpensAt (lines : List String) (index : Nat) (name : String) : Prop where
  here : (lines[index]?).map LineContent.read = some (.unclosed name)
  before : ∀ j < index, ∀ other, (lines[j]?).map LineContent.read ≠ some (.unclosed other)

/-- A line with an open quote is the first one if nothing is before it. -/
theorem opensAt_cons_iff_of_unclosed {text : String} {rest : List String} {name : String}
    (hread : LineContent.read text = .unclosed name) (index : Nat) (other : String) :
    OpensAt (text :: rest) index other ↔ index = 0 ∧ other = name := by
  constructor
  · rintro ⟨hhere, hbefore⟩
    cases index with
    | succ index => exact absurd (by simp [hread]) (hbefore 0 (Nat.succ_pos index) name)
    | zero =>
      simp only [List.getElem?_cons_zero, Option.map_some, hread, Option.some.injEq,
        LineContent.unclosed.injEq] at hhere
      exact ⟨rfl, hhere.symm⟩
  · rintro ⟨rfl, rfl⟩
    exact ⟨by simp [hread], by simp⟩

/-- A line without an open quote only shifts the indices. -/
theorem opensAt_cons_iff {text : String} (hread : ∀ name, LineContent.read text ≠ .unclosed name)
    (rest : List String) (index : Nat) (name : String) :
    OpensAt (text :: rest) index name ↔ ∃ k, index = k + 1 ∧ OpensAt rest k name := by
  constructor
  · rintro ⟨hhere, hbefore⟩
    cases index with
    | zero => exact absurd (by simpa using hhere) (hread name)
    | succ k =>
      refine ⟨k, rfl, by simpa using hhere, ?_⟩
      intro j hj other
      simpa using hbefore (j + 1) (by omega) other
  · rintro ⟨k, rfl, hhere, hbefore⟩
    refine ⟨by simpa using hhere, ?_⟩
    intro j hj other
    cases j with
    | zero => simpa using hread other
    | succ j => simpa using hbefore j (by omega) other

/-- The first open quote ends the splitting of lines. -/
theorem commandLines_error_iff {number : Nat} {lines : List String} {u : UnclosedQuote} :
    commandLines number lines = .error u ↔
      ∃ k, u.number = number + k ∧ OpensAt lines k u.name := by
  induction lines generalizing number with
  | nil =>
    constructor
    · rintro ⟨⟩
    · rintro ⟨k, -, hopens⟩
      cases hopens.here
  | cons text rest ih =>
    have hshift (hread : ∀ name, LineContent.read text ≠ .unclosed name) :
        (∃ k, u.number = number + k ∧ OpensAt (text :: rest) k u.name) ↔
          commandLines (number + 1) rest = .error u := by
      simp only [ih, opensAt_cons_iff hread]
      constructor
      · rintro ⟨_, hnumber, k, rfl, hopens⟩
        exact ⟨k, by omega, hopens⟩
      · rintro ⟨k, hnumber, hopens⟩
        exact ⟨k + 1, by omega, k, rfl, hopens⟩
    rw [commandLines]
    cases hread : LineContent.read text with
    | nothing => exact (hshift (by simp [hread])).symm
    | command name params =>
      rw [hshift (by simp [hread])]
      dsimp only
      cases commandLines (number + 1) rest <;> simp
    | unclosed name =>
      simp only [opensAt_cons_iff_of_unclosed hread]
      constructor
      · rintro ⟨⟩
        exact ⟨0, rfl, rfl, rfl⟩
      · rintro ⟨k, hnumber, rfl, hname⟩
        rw [← hname, ← Nat.add_zero number, ← hnumber]

/-- Lines that can be split have no open quote. -/
theorem read_ne_unclosed {number : Nat} {lines : List String} {cs : List SourceLine}
    (h : commandLines number lines = .ok cs) :
    ∀ text ∈ lines, ∀ name, LineContent.read text ≠ .unclosed name := by
  induction lines generalizing number cs with
  | nil => simp
  | cons text rest ih =>
    rw [commandLines] at h
    simp only [List.forall_mem_cons]
    split at h
    · rename_i hread
      exact ⟨by simp [hread], ih h⟩
    · cases h
    · rename_i hread
      split at h
      · cases h
      · rename_i hrest
        exact ⟨by simp [hread], ih hrest⟩

/-- A script that can be split has no line with an open quote. -/
theorem not_isOpenLine_of_ofLines {lines : List String} {source : Source}
    (h : ofLines lines = .ok source) (number : Nat) (name : String) :
    ¬ IsOpenLine lines number name := by
  rintro ⟨-, hopen⟩
  obtain ⟨text, htext, hread⟩ := Option.map_eq_some_iff.mp hopen
  exact read_ne_unclosed (commandLines_of_ofLines h).1 text (List.mem_of_getElem? htext) name hread

/-- A script without an open quote can be split. -/
theorem exists_ofLines {lines : List String} (h : ∀ number name, ¬ IsOpenLine lines number name) :
    ∃ source, ofLines lines = .ok source := by
  cases hlines : commandLines 1 lines with
  | ok cs => exact ⟨⟨cs, lines.length⟩, by rw [ofLines, hlines]⟩
  | error u =>
    obtain ⟨k, -, hopens⟩ := commandLines_error_iff.mp hlines
    exact absurd ⟨Nat.succ_pos k, hopens.here⟩ (h (k + 1) u.name)

/-- The line that keeps a script from being split is the first with an open quote. -/
theorem ofLines_error_iff {lines : List String} {u : UnclosedQuote} :
    ofLines lines = .error u ↔ IsOpenLine lines u.number u.name ∧
      u.number ∈ lowerBounds {n | ∃ name, IsOpenLine lines n name} := by
  have hlines : ofLines lines = .error u ↔ commandLines 1 lines = .error u := by
    rw [ofLines]
    cases commandLines 1 lines <;> simp
  rw [hlines, commandLines_error_iff]
  constructor
  · rintro ⟨k, hnumber, hopen, hbefore⟩
    have hk : u.number - 1 = k := by omega
    refine ⟨⟨by omega, hk.symm ▸ hopen⟩, ?_⟩
    rintro n ⟨name, hpos, hn⟩
    by_contra hlt
    exact hbefore (n - 1) (by omega) name hn
  · rintro ⟨⟨hpos, hopen⟩, hleast⟩
    refine ⟨u.number - 1, by omega, hopen, ?_⟩
    intro j hj name hline
    have : u.number ≤ j + 1 := hleast ⟨name, Nat.succ_pos j, hline⟩
    omega

end Source

namespace Catalog

/-- Why a command line is refused. The command was found in the catalog, unless it is
unknown. -/
inductive Refuses (catalog : Catalog) (source : Source) (c : SourceLine) : CompileError → Prop
  where
  | unknown (h : catalog.find? c.name = none) :
      Refuses catalog source c (.unknownCommand c.name c.number)
  | count (d : Descriptor) (hd : catalog.find? c.name = some d)
      (h : d.arity.accepts c.params.length = false) :
      Refuses catalog source c
        (.invalidParameters d.name c.number (.count d.arity c.params.length))
  | invalid (d : Descriptor) (reason : ParamError) (hd : catalog.find? c.name = some d)
      (hcount : d.arity.accepts c.params.length = true)
      (h : d.kind.prepare ⟨c.number, c.params, source⟩ = .error (.invalid reason)) :
      Refuses catalog source c (.invalidParameters d.name c.number reason)
  | unresolved (d : Descriptor) (name : String) (hd : catalog.find? c.name = some d)
      (hcount : d.arity.accepts c.params.length = true)
      (h : d.kind.prepare ⟨c.number, c.params, source⟩ = .error (.unresolved name)) :
      Refuses catalog source c (.unresolvedTarget name c.number)

/-- What is wrong with a line of a text. Its command is prepared against the whole script. -/
inductive Fault (catalog : Catalog) (lines : List String) (number : Nat) : CompileError → Prop
  where
  | openQuote (name : String) (h : IsOpenLine lines number name) :
      Fault catalog lines number (.invalidParameters name number .unclosedQuote)
  | refused (name : String) (params : List String) (e : CompileError)
      (h : Holds lines number name params)
      (hrefused : catalog.Refuses (Source.legible lines) ⟨number, name, params⟩ e) :
      Fault catalog lines number e

/-- A line of a text is at fault. -/
def IsFaulty (catalog : Catalog) (lines : List String) (number : Nat) : Prop :=
  ∃ e, catalog.Fault lines number e

/-- The fault that decides how compiling a text fails. It is that of the first line with an
open quote. If there is none, it is that of the first line at fault. -/
structure DecidingFault (catalog : Catalog) (lines : List String) (number : Nat)
    (e : CompileError) : Prop where
  fault : catalog.Fault lines number e
  /-- The error carries the number of the line. -/
  line : e.line? = some number
  openQuote : (∃ n name, IsOpenLine lines n name) →
    IsLeast {n | ∃ name, IsOpenLine lines n name} number
  first : (¬ ∃ n name, IsOpenLine lines n name) → IsLeast {n | catalog.IsFaulty lines n} number

variable {catalog : Catalog} {lines : List String} {source : Source}

/-! ### One line -/

/-- A command line does not compile exactly when it is refused. -/
theorem compileLine_error_iff {c : SourceLine} {e : CompileError} :
    catalog.compileLine source c = .error e ↔ catalog.Refuses source c e := by
  constructor
  · intro h
    rw [compileLine] at h
    split at h
    · rename_i hd
      cases h
      exact .unknown hd
    · rename_i d hd
      split at h
      · rename_i hcount
        split at h
        · cases h
        · rename_i reason hprepare
          cases h
          exact .invalid d reason hd hcount hprepare
        · rename_i name hprepare
          cases h
          exact .unresolved d name hd hcount hprepare
      · rename_i hcount
        cases h
        exact .count d hd (by simpa using hcount)
  · intro h
    rw [compileLine]
    cases h with
    | unknown hd => rw [hd]
    | count d hd hcount => simp only [hd, hcount, Bool.false_eq_true, if_false]
    | invalid d reason hd hcount hprepare => simp only [hd, hcount, if_true, hprepare]
    | unresolved d name hd hcount hprepare => simp only [hd, hcount, if_true, hprepare]

/-- A refusal carries the number of its line. -/
theorem Refuses.line? {c : SourceLine} {e : CompileError} (h : catalog.Refuses source c e) :
    e.line? = some c.number := by
  cases h <;> rfl

/-- A fault carries the number of its line. -/
theorem Fault.line? {number : Nat} {e : CompileError} (h : catalog.Fault lines number e) :
    e.line? = some number := by
  cases h with
  | openQuote name h => rfl
  | refused name params e h hrefused => exact hrefused.line?

/-- A line has at most one fault. -/
theorem Fault.unique {number : Nat} {e e' : CompileError} (h : catalog.Fault lines number e)
    (h' : catalog.Fault lines number e') : e = e' := by
  cases h with
  | openQuote name h =>
    cases h' with
    | openQuote name' h' =>
      have hname := h.2.symm.trans h'.2
      simp only [Option.some.injEq, LineContent.unclosed.injEq] at hname
      rw [hname]
    | refused name' params e hholds hrefused =>
      have hread := h.2.symm.trans hholds.2
      simp at hread
  | refused name params _ hholds hrefused =>
    cases h' with
    | openQuote name' h' =>
      have hread := hholds.2.symm.trans h'.2
      simp at hread
    | refused name' params' _ hholds' hrefused' =>
      have hread := hholds.2.symm.trans hholds'.2
      simp only [Option.some.injEq, LineContent.command.injEq] at hread
      obtain ⟨rfl, rfl⟩ := hread
      exact Except.error.inj
        ((compileLine_error_iff.mpr hrefused).symm.trans (compileLine_error_iff.mpr hrefused'))

/-! ### All lines -/

/-- The first command line that is refused ends the compilation. -/
theorem compileLines_error_iff {cs : List SourceLine} {e : CompileError} :
    catalog.compileLines source cs = .error e ↔
      ∃ before c after, cs = before ++ c :: after ∧
        (∀ d ∈ before, ∃ i, catalog.compileLine source d = .ok i) ∧
        catalog.compileLine source c = .error e := by
  induction cs with
  | nil => simp [compileLines]
  | cons c rest ih =>
    cases hc : catalog.compileLine source c with
    | error e' =>
      have hfails : catalog.compileLines source (c :: rest) = .error e' := by
        rw [compileLines, hc]
      rw [hfails]
      constructor
      · intro h
        cases h
        exact ⟨[], c, rest, rfl, by simp, hc⟩
      · rintro ⟨before, d, after, hsplit, hbefore, hd⟩
        cases before with
        | nil =>
          cases hsplit
          rw [hc] at hd
          rw [Except.error.inj hd]
        | cons first before =>
          cases hsplit
          obtain ⟨i, hi⟩ := hbefore c List.mem_cons_self
          rw [hc] at hi
          cases hi
    | ok i =>
      -- The line compiles, so the rest decides.
      have hrest : catalog.compileLines source (c :: rest) = .error e ↔
          catalog.compileLines source rest = .error e := by
        rw [compileLines, hc]
        cases catalog.compileLines source rest <;> simp
      rw [hrest, ih]
      constructor
      · rintro ⟨before, d, after, rfl, hbefore, hd⟩
        refine ⟨c :: before, d, after, rfl, ?_, hd⟩
        simpa [hc] using hbefore
      · rintro ⟨before, d, after, hsplit, hbefore, hd⟩
        cases before with
        | nil =>
          cases hsplit
          rw [hc] at hd
          cases hd
        | cons first before =>
          cases hsplit
          exact ⟨before, d, after, rfl,
            fun d' hd' => hbefore d' (List.mem_cons_of_mem _ hd'), hd⟩

/-- In a script that can be split, the lines at fault are the command lines that are
refused. -/
theorem fault_iff_of_ofLines (hsource : Source.ofLines lines = .ok source) (number : Nat)
    (e : CompileError) :
    catalog.Fault lines number e ↔
      ∃ c ∈ source.lines, c.number = number ∧ catalog.compileLine source c = .error e := by
  constructor
  · intro h
    cases h with
    | openQuote name h => exact absurd h (Source.not_isOpenLine_of_ofLines hsource _ _)
    | refused name params _ hholds hrefused =>
      rw [Source.legible_of_ofLines hsource] at hrefused
      exact ⟨⟨number, name, params⟩, (Source.mem_lines_iff hsource _).mpr hholds, rfl,
        compileLine_error_iff.mpr hrefused⟩
  · rintro ⟨c, hc, rfl, herror⟩
    have hholds := (Source.mem_lines_iff hsource c).mp hc
    refine .refused c.name c.params e hholds ?_
    rw [Source.legible_of_ofLines hsource]
    exact compileLine_error_iff.mp herror

/-- A script that does not compile reports a deciding fault. -/
theorem decidingFault_of_compile {e : CompileError} (h : catalog.compile lines = .error e) :
    ∃ number, catalog.DecidingFault lines number e := by
  rw [compile] at h
  split at h
  · -- The lines could not be split, because a quote is open.
    rename_i u hsource
    cases h
    obtain ⟨hopen, hleast⟩ := Source.ofLines_error_iff.mp hsource
    refine ⟨u.number, .openQuote u.name hopen, rfl, fun _ => ⟨⟨u.name, hopen⟩, hleast⟩, ?_⟩
    intro hclosed
    exact absurd ⟨u.number, u.name, hopen⟩ hclosed
  · rename_i source hsource
    split at h
    · rename_i e' hcompile
      cases h
      obtain ⟨before, c, after, hsplit, hbefore, hc⟩ := compileLines_error_iff.mp hcompile
      have hmem : c ∈ source.lines := by simp [hsplit]
      have hthis : catalog.Fault lines c.number e :=
        (fault_iff_of_ofLines hsource _ _).mpr ⟨c, hmem, rfl, hc⟩
      refine ⟨c.number, hthis, hthis.line?, ?_, fun _ => ⟨⟨e, hthis⟩, ?_⟩⟩
      · rintro ⟨n, name, hopen⟩
        exact absurd hopen (Source.not_isOpenLine_of_ofLines hsource n name)
      rintro n ⟨e'', hn⟩
      obtain ⟨d, hd, rfl, herror⟩ := (fault_iff_of_ofLines hsource n e'').mp hn
      have hsorted :=
        Source.pairwise_number_commandLines (Source.commandLines_of_ofLines hsource).1
      rw [hsplit] at hd hsorted
      -- The lines before it compile, and those behind it have greater numbers.
      rcases List.mem_append.mp hd with hd | hd
      · obtain ⟨i, hi⟩ := hbefore d hd
        rw [herror] at hi
        cases hi
      · rcases List.mem_cons.mp hd with rfl | hd
        · exact Nat.le_refl _
        · exact Nat.le_of_lt
            ((List.pairwise_cons.mp (List.pairwise_append.mp hsorted).2.1).1 d hd)
    · cases h

/-- A script that compiles has no line at fault. -/
theorem not_isFaulty_of_compile {script : Script} (h : catalog.compile lines = .ok script)
    (number : Nat) : ¬ catalog.IsFaulty lines number := by
  obtain ⟨source, hsource, -, hpairs⟩ := source_of_compile h
  rintro ⟨e, hfault⟩
  obtain ⟨c, hc, -, herror⟩ := (fault_iff_of_ofLines hsource number e).mp hfault
  obtain ⟨i, -, hi⟩ := exists_of_forall₂ hpairs hc
  rw [herror] at hi
  cases hi

/-- How compiling a text fails, under every catalog: exactly with the deciding fault. A text
with a line at fault never compiles. -/
theorem compile_error_iff (catalog : Catalog) (lines : List String) (e : CompileError) :
    catalog.compile lines = .error e ↔ ∃ number, catalog.DecidingFault lines number e := by
  refine ⟨decidingFault_of_compile, ?_⟩
  rintro ⟨number, hdecides⟩
  cases hcompile : catalog.compile lines with
  | ok script => exact absurd ⟨e, hdecides.fault⟩ (not_isFaulty_of_compile hcompile number)
  | error e' =>
    obtain ⟨number', hdecides'⟩ := decidingFault_of_compile hcompile
    -- Both decide, so they are faults of the same line.
    have hsame : number' = number := by
      by_cases hopen : ∃ n name, IsOpenLine lines n name
      · exact (hdecides'.openQuote hopen).unique (hdecides.openQuote hopen)
      · exact (hdecides'.first hopen).unique (hdecides.first hopen)
    subst hsame
    rw [hdecides'.fault.unique hdecides.fault]

/-- The reported line need not be the first at fault. Here the command of the first line is
unknown, but the open quote of the second is reported. -/
theorem late_open_quote_wins :
    builtin.compile ["Fly 1", "KeyPressText \"oops"] =
        .error (.invalidParameters "KeyPressText" 2 .unclosedQuote) ∧
      IsLeast {n | builtin.IsFaulty ["Fly 1", "KeyPressText \"oops"] n} 1 ∧
      ¬ ∀ (catalog : Catalog) (lines : List String) (e : CompileError),
        catalog.compile lines = .error e →
          ∃ n, e.line? = some n ∧ IsLeast {n | catalog.IsFaulty lines n} n := by
  have hcompile : builtin.compile ["Fly 1", "KeyPressText \"oops"] =
      .error (.invalidParameters "KeyPressText" 2 .unclosedQuote) := by
    with_unfolding_all rfl
  have hleast : IsLeast {n | builtin.IsFaulty ["Fly 1", "KeyPressText \"oops"] n} 1 := by
    constructor
    · have hread : LineContent.read "Fly 1" = .command "Fly" ["1"] := by decide +kernel
      exact ⟨_, .refused "Fly" ["1"] _ ⟨Nat.one_pos, by simp [hread]⟩
        (.unknown (by with_unfolding_all rfl))⟩
    · rintro n ⟨e, hfault⟩
      cases hfault with
      | openQuote name hopen => exact hopen.1
      | refused name params _ hholds _ => exact hholds.1
  refine ⟨hcompile, hleast, ?_⟩
  intro hclaim
  obtain ⟨n, hline, hfirst⟩ := hclaim _ _ _ hcompile
  have hsecond : 2 = n := Option.some.inj hline
  have hfirst' : n = 1 := hfirst.unique hleast
  omega

end Catalog

end InputScript
