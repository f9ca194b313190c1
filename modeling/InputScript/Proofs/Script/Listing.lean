import InputScript.Proofs.Script.Faults
import InputScript.Proofs.Script.JumpTargets
import InputScript.Proofs.Source.Quoting
import Mathlib.Data.List.Sort

/-!
# `InputScript.Proofs.Script.Listing`: a compiled script can be listed and compiled again

The listing of a script is a text of as many lines as the script has. Each instruction stands
on its own line, with the name of its command and with its parameters as they are kept, all of
them quoted. The other lines are empty. No name of a jump target is left in a listing, only
the numbers of lines.

* `Builtin.prepare_prepared`: preparing the kept parameters again gives the same command,
  whatever the rest of the script is.
* `ofLines_listing`: a listing is split into the instructions that it lists.
* `compile_listing`: compiling a listing gives the script again.
-/

set_option autoImplicit false

namespace InputScript

open Number Text

/-- An instruction as a line of a listing. -/
def Instruction.listing (i : Instruction) : String :=
  writeLine i.name i.params

/-- A line of the listing of a script, which is empty unless there is an instruction on it. -/
def Script.listingLine (s : Script) (number : Nat) : String :=
  match s.instructions.find? fun i => i.line == number with
  | none => ""
  | some i => i.listing

/-- The listing of a script. -/
def Script.listing (s : Script) : List String :=
  (List.range s.lineCount).map fun k => s.listingLine (k + 1)

/-- An instruction as a command line. -/
def Instruction.sourceLine (i : Instruction) : SourceLine :=
  ⟨i.line, i.name, i.params⟩

/-! ### Preparing again -/

namespace Builtin

/-- The names of the built-in commands are plain. -/
theorem isPlainName (b : Builtin) : IsPlainName b.name := by
  -- The characters of the names are checked one by one.
  have hall : b.name.toList.all (fun c =>
      decide (Text.isBlank c = false ∧ c ≠ '#' ∧ c ≠ '"' ∧ c ≠ '\\')) = true := by
    cases b <;> decide
  refine ⟨by cases b <;> decide, ?_⟩
  intro c hc
  exact of_decide_eq_true (List.all_eq_true.mp hall c hc)

/-- Only a jump looks at the rest of the script. -/
theorem prepare_of_ne_call {b : Builtin} (hb : b ≠ .call) (scope : Scope) (line : Nat)
    (source : Source) : b.prepare ⟨line, scope.params, source⟩ = b.prepare scope := by
  cases b with
  | call => exact absurd rfl hb
  | label | wait | stop | keyDown | keyUp | keyPress | typeText | mouseMove | mouseDown | mouseUp
  | mouseClick | mouseWheel => rfl

/-- Only a jump changes its parameters. -/
theorem params_of_prepare {b : Builtin} (hb : b ≠ .call) {scope : Scope} {p : Prepared}
    (h : b.prepare scope = .ok p) : p.params = scope.params := by
  cases b with
  | call => exact absurd rfl hb
  | label =>
    simp only [prepare, prepareLabel] at h
    split at h <;> cases h; rfl
  | wait =>
    simp only [prepare, prepareWait, bind, Except.bind] at h
    split at h
    · cases h
    · split at h
      · cases h
      · split at h <;> cases h; rfl
  | stop => cases h; rfl
  | typeText =>
    simp only [prepare, prepareTypeText, bind, Except.bind] at h
    split at h <;> cases h; rfl
  | mouseMove =>
    simp only [prepare, prepareMouseMove, bind, Except.bind] at h
    split at h
    · cases h
    · split at h <;> cases h; rfl
  | keyDown | keyUp | keyPress | mouseDown | mouseUp | mouseClick | mouseWheel =>
    simp only [prepare, bind, Except.bind] at h
    split at h <;> cases h; rfl

/-- A jump keeps the number of its target, which is read as that number again. -/
theorem prepareCall_prepared {scope : Scope} {p : Prepared} (h : prepareCall scope = .ok p)
    (hsize : ∀ name line, scope.target? name = some line → line < 0x8000000000000000)
    (line : Nat) (source : Source) :
    prepareCall ⟨line, p.params, source⟩ = .ok p ∧ p.params.length = scope.params.length := by
  rw [prepareCall] at h
  split at h
  · cases h
  · rename_i raw hraw
    split at h
    · -- A number is kept as it is.
      rename_i n hn
      cases h
      have hraw' : (⟨line, scope.params, source⟩ : Scope).param? 0 = some raw := hraw
      exact ⟨by rw [prepareCall, hraw']; simp only [hn], rfl⟩
    · split at h
      · cases h
      · rename_i target htarget
        cases h
        -- The number of the line stands where the name was.
        have hparam :
            (⟨line, scope.setParam 0 (toString target), source⟩ : Scope).param? 0 =
              some (toString target) := by
          have hlt : 0 < scope.params.length := (List.getElem?_eq_some_iff.mp hraw).1
          exact List.getElem?_set_self hlt
        have hnumber : integer64? (toString target) = some (target : Int) :=
          signed?_toString (hsize raw target htarget)
        exact ⟨by rw [prepareCall, hparam]; simp only [hnumber], List.length_set⟩

/-- Preparing the parameters that are kept gives the same command again, whatever the rest of
the script is, and as many parameters as there were. -/
theorem prepare_prepared {b : Builtin} {scope : Scope} {p : Prepared}
    (h : b.prepare scope = .ok p)
    (hsize : ∀ name line, scope.target? name = some line → line < 0x8000000000000000)
    (line : Nat) (source : Source) :
    b.prepare ⟨line, p.params, source⟩ = .ok p ∧ p.params.length = scope.params.length := by
  by_cases hb : b = .call
  · subst hb
    exact prepareCall_prepared h hsize line source
  · have hparams := params_of_prepare hb h
    rw [hparams, prepare_of_ne_call hb]
    exact ⟨h, rfl⟩

end Builtin

namespace Catalog

/-- The catalog is searched without regard to case. -/
theorem find?_of_sameName (catalog : Catalog) {a b : String} (h : sameName a b = true) :
    catalog.find? a = catalog.find? b := by
  have hlower := sameName_iff.mp h
  rw [find?, find?]
  congr 1
  funext d
  rw [sameName, sameName, hlower]

/-- What a command line goes through that compiles. -/
theorem compileLine_ok_iff {catalog : Catalog} {source : Source} {c : SourceLine}
    {i : Instruction} : catalog.compileLine source c = .ok i ↔
      ∃ d p, catalog.find? c.name = some d ∧ d.arity.accepts c.params.length = true ∧
        d.kind.prepare ⟨c.number, c.params, source⟩ = .ok p ∧
        i = ⟨c.number, p.params, p.command⟩ := by
  rw [compileLine]
  constructor
  · intro h
    split at h
    · cases h
    · rename_i d hd
      split at h
      · rename_i hcount
        split at h
        · rename_i p hp
          cases h
          exact ⟨d, p, hd, hcount, hp, rfl⟩
        · cases h
        · cases h
      · cases h
  · rintro ⟨d, p, hd, hcount, hp, rfl⟩
    simp only [hd, hcount, if_true, hp]

/-- Command lines that compile one by one compile together. -/
theorem compileLines_of_forall₂ {catalog : Catalog} {source : Source} {cs : List SourceLine}
    {is : List Instruction}
    (h : List.Forall₂ (fun c i => catalog.compileLine source c = .ok i) cs is) :
    catalog.compileLines source cs = .ok is := by
  induction h with
  | nil => rfl
  | cons hi _ ih => rw [compileLines, hi, ih]

/-- An instruction of the built-in catalog compiles to itself, whatever the rest of the script
is. -/
theorem compileLine_sourceLine {source : Source} {c : SourceLine} {i : Instruction}
    (h : builtin.compileLine source c = .ok i)
    (hsize : ∀ line, (∃ d ∈ source.lines, d.number = line) → line < 0x8000000000000000)
    (source' : Source) : builtin.compileLine source' i.sourceLine = .ok i := by
  obtain ⟨d, p, hd, hcount, hprepare, rfl⟩ := compileLine_ok_iff.mp h
  obtain ⟨b, hkind, hname, -⟩ := mem_builtin (List.mem_of_find?_eq_some hd)
  rw [hkind] at hprepare
  -- The name in the catalog is the one on the line, up to case.
  have hsame : sameName d.name c.name = true := sameName_of_find? hd
  have hcommand : p.command.name = d.name :=
    (CommandKind.name_of_prepare_builtin hprepare).trans hname.symm
  obtain ⟨hagain, hlength⟩ := Builtin.prepare_prepared hprepare
    (fun name line htarget => hsize line (exists_line_of_target? htarget)) c.number source'
  refine compileLine_ok_iff.mpr ⟨d, p, ?_, ?_, ?_, rfl⟩
  · show builtin.find? p.command.name = some d
    rw [hcommand, find?_of_sameName builtin hsame, hd]
  · show d.arity.accepts p.params.length = true
    rw [hlength]
    exact hcount
  · rw [hkind]
    exact hagain

end Catalog

/-! ### Splitting a listing -/

section Listing

variable {s : Script}

/-- A listing has as many lines as the script. -/
theorem length_listing (s : Script) : s.listing.length = s.lineCount := by
  rw [Script.listing, List.length_map, List.length_range]

/-- The lines of a listing by their numbers. -/
theorem getElem?_listing {number : Nat} (hpos : 0 < number) (hle : number ≤ s.lineCount) :
    s.listing[number - 1]? = some (s.listingLine number) := by
  have hlt : number - 1 < s.lineCount := by omega
  rw [Script.listing, List.getElem?_map, List.getElem?_range hlt, Option.map_some,
    Nat.sub_add_cancel hpos]

/-- The instruction on a line is found there. -/
theorem find?_line (hsorted : s.instructions.Pairwise fun a b => a.line < b.line)
    {i : Instruction} (hi : i ∈ s.instructions) :
    s.instructions.find? (fun j => j.line == i.line) = some i := by
  have hnodup : (s.instructions.map Instruction.line).Nodup := by
    rw [List.nodup_iff_pairwise_ne, List.pairwise_map]
    exact hsorted.imp Nat.ne_of_lt
  cases hfind : s.instructions.find? fun j => j.line == i.line with
  | none =>
    have := List.find?_eq_none.mp hfind i hi
    simp at this
  | some j =>
    have hline : j.line = i.line := by simpa using List.find?_some hfind
    rw [List.inj_on_of_nodup_map hnodup (List.mem_of_find?_eq_some hfind) hi hline]

variable (hnames : ∀ i ∈ s.instructions, IsPlainName i.name)

include hnames

/-- A line of a listing holds nothing, or the instruction on that line. -/
theorem read_listingLine (number : Nat) :
    LineContent.read (s.listingLine number) = .nothing ∨
      ∃ i ∈ s.instructions, i.line = number ∧
        LineContent.read (s.listingLine number) = .command i.name i.params := by
  rw [Script.listingLine]
  split
  · exact .inl (by decide)
  · rename_i i hfind
    have hi := List.mem_of_find?_eq_some hfind
    refine .inr ⟨i, hi, by simpa using List.find?_some hfind, ?_⟩
    exact read_writeLine (hnames i hi) i.params

/-- No quote is open in a listing. -/
theorem not_isOpenLine_listing (number : Nat) (name : String) :
    ¬ IsOpenLine s.listing number name := by
  rintro ⟨-, hopen⟩
  obtain ⟨text, htext, hread⟩ := Option.map_eq_some_iff.mp hopen
  obtain ⟨k, -, rfl⟩ := List.mem_map.mp (List.mem_of_getElem? htext)
  rcases read_listingLine hnames (k + 1) with hnothing | ⟨i, -, -, hcommand⟩
  · rw [hread] at hnothing
    cases hnothing
  · rw [hread] at hcommand
    cases hcommand

variable (hsorted : s.instructions.Pairwise fun a b => a.line < b.line)
  (hlines : ∀ i ∈ s.instructions, 1 ≤ i.line ∧ i.line ≤ s.lineCount)

include hsorted hlines

/-- The commands in a listing are the instructions. -/
theorem holds_listing_iff (c : SourceLine) :
    Holds s.listing c.number c.name c.params ↔
      c ∈ s.instructions.map Instruction.sourceLine := by
  rw [List.mem_map]
  constructor
  · rintro ⟨hpos, hread⟩
    obtain ⟨text, htext, hread⟩ := Option.map_eq_some_iff.mp hread
    have hlt : c.number - 1 < s.listing.length := (List.getElem?_eq_some_iff.mp htext).1
    rw [length_listing] at hlt
    rw [getElem?_listing hpos (by omega)] at htext
    cases htext
    rcases read_listingLine hnames c.number with hnothing | ⟨i, hi, hline, hcommand⟩
    · rw [hread] at hnothing
      cases hnothing
    · rw [hread, LineContent.command.injEq] at hcommand
      refine ⟨i, hi, ?_⟩
      rw [Instruction.sourceLine, hline, ← hcommand.1, ← hcommand.2]
  · rintro ⟨i, hi, rfl⟩
    obtain ⟨hpos, hle⟩ := hlines i hi
    refine ⟨hpos, ?_⟩
    show (s.listing[i.line - 1]?).map LineContent.read = some (.command i.name i.params)
    rw [getElem?_listing hpos hle, Script.listingLine, find?_line hsorted hi, Option.map_some,
      ← read_writeLine (hnames i hi) i.params]
    rfl

/-- A listing is split into the instructions that it lists. -/
theorem ofLines_listing : Source.ofLines s.listing =
    .ok ⟨s.instructions.map Instruction.sourceLine, s.lineCount⟩ := by
  obtain ⟨⟨commands, count⟩, hsource⟩ :=
    Source.exists_ofLines (not_isOpenLine_listing hnames)
  have hcount : count = s.lineCount :=
    (Source.commandLines_of_ofLines hsource).2.trans (length_listing s)
  -- Both lists are sorted by line and have the same members.
  have hsorted' : commands.Pairwise fun a b => a.number < b.number :=
    Source.pairwise_number_commandLines (Source.commandLines_of_ofLines hsource).1
  have hcommands : commands = s.instructions.map Instruction.sourceLine := by
    have : Std.Antisymm fun a b : SourceLine => a.number < b.number :=
      ⟨fun a b hab hba => absurd hab (Nat.lt_asymm hba)⟩
    have : Std.Irrefl fun a b : SourceLine => a.number < b.number :=
      ⟨fun a => Nat.lt_irrefl a.number⟩
    refine hsorted'.eq_of_mem_iff (List.pairwise_map.mpr hsorted) ?_
    intro c
    rw [← holds_listing_iff hnames hsorted hlines c]
    exact Source.mem_lines_iff hsource c
  rw [hsource, hcount, hcommands]

end Listing

namespace Catalog

/-- The instructions of a script that compiles lie on lines of the text, and have plain
names. -/
theorem line_and_name_of_compile {lines : List String} {script : Script}
    (h : builtin.compile lines = .ok script) {i : Instruction} (hi : i ∈ script.instructions) :
    1 ≤ i.line ∧ i.line ≤ script.lineCount ∧ IsPlainName i.name := by
  obtain ⟨source, hsource, hcount, hpairs⟩ := source_of_compile h
  obtain ⟨c, hc, hcompile⟩ := exists_of_forall₂ hpairs.flip hi
  obtain ⟨hpos, hle⟩ := Source.number_le_lineCount hsource hc
  obtain ⟨b, -, hprepared, -⟩ := builtin_of_compileLine hcompile
  rw [line_of_compileLine hcompile, hcount, ← (Source.commandLines_of_ofLines hsource).2]
  refine ⟨hpos, hle, ?_⟩
  rw [Instruction.name, CommandKind.name_of_prepare_builtin hprepared]
  exact b.isPlainName

/-- Compiling the listing of a compiled script gives the script again: the same instructions
on the same lines with the same parameters, the same targets of jumps, and therefore the same
labels. The number of a target is read as a number of 64 bits with a sign. No text in memory has
more lines than such a number counts. -/
theorem compile_listing {lines : List String} {script : Script}
    (h : builtin.compile lines = .ok script) (hsize : lines.length < 0x8000000000000000) :
    builtin.compile script.listing = .ok script := by
  obtain ⟨source, hsource, hcount, hpairs⟩ := source_of_compile h
  have hsplit := ofLines_listing (fun i hi => (line_and_name_of_compile h hi).2.2)
    (pairwise_line_of_forall₂ hsource hpairs)
    (fun i hi => ⟨(line_and_name_of_compile h hi).1, (line_and_name_of_compile h hi).2.1⟩)
  have htargets : ∀ line, (∃ d ∈ source.lines, d.number = line) → line < 0x8000000000000000 := by
    rintro line ⟨d, hd, rfl⟩
    have hle := (Source.number_le_lineCount hsource hd).2
    rw [(Source.commandLines_of_ofLines hsource).2] at hle
    omega
  -- Every instruction compiles to itself in the listing.
  have hagain : builtin.compileLines
      ⟨script.instructions.map Instruction.sourceLine, script.lineCount⟩
      (script.instructions.map Instruction.sourceLine) = .ok script.instructions := by
    apply compileLines_of_forall₂
    rw [List.forall₂_map_left_iff, List.forall₂_same]
    intro i hi
    obtain ⟨c, -, hc⟩ := exists_of_forall₂ hpairs.flip hi
    exact compileLine_sourceLine hc htargets _
  rw [compile, hsplit]
  dsimp only
  rw [hagain]

/-- A jump to a label whose name needs quotes and escapes: the listing has the number of the
line instead. -/
theorem compile_listing_escapes : ∃ script,
    builtin.compile ["call \"a\\\" #\"", "# no command", "label \"a\\\" #\""] = .ok script ∧
      script.listing = ["Call \"3\"", "", "Label \"a\\\" #\""] ∧
      builtin.compile script.listing = .ok script := by
  have hcompile : builtin.compile
      ["call \"a\\\" #\"", "# no command", "label \"a\\\" #\""] =
        .ok ⟨[⟨1, ["3"], .call 3⟩, ⟨3, ["a\" #"], .label "a\" #"⟩], 3⟩ := by
    with_unfolding_all rfl
  exact ⟨_, hcompile, by decide +kernel, compile_listing hcompile (by decide)⟩

end Catalog

end InputScript
