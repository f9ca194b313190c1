import InputScript.Proofs.Catalog.Builtin
import InputScript.Proofs.Script.LabelTable
import InputScript.Proofs.Script.Numbering
import Mathlib.Order.Bounds.Defs

/-!
# `InputScript.Proofs.Script.JumpTargets`: where a jump leads

Targets are searched by source line among the raw command lines, before anything is
compiled. The label table is built by instruction index from compiled commands. The theorems
say that the two agree under the built-in catalog.

* `isLeast_of_find?`: a search through numbered lines finds the line of the least number.
* `findIdx?_of_find?`: a search through command lines is a search through instructions.
* `call_of_compileLine`: what a jump keeps of its parameter.
* `target?_of_isLabelLine`, `target?_of_no_labelLine`: which line a name means.
* `jump_targets`: the whole statement for a compiled script.
-/

set_option autoImplicit false

namespace InputScript

open Catalog Number Text

/-- A line of the text defines a label: its command is a label and the name is its
parameter. -/
def IsLabelLine (lines : List String) (name : String) (number : Nat) : Prop :=
  ∃ keyword, sameName keyword Builtin.label.name = true ∧ Holds lines number keyword [name]

/-- A line of the text holds a command of this name, whatever its case and parameters. -/
def IsCommandLine (lines : List String) (name : String) (number : Nat) : Prop :=
  ∃ keyword params, sameName keyword name = true ∧ Holds lines number keyword params

/-! ### Searching numbered lines -/

/-- In lines whose numbers increase, a search finds the line of the least number. -/
theorem isLeast_of_find? {cs : List SourceLine} {p : SourceLine → Bool} {c : SourceLine}
    (hsorted : cs.Pairwise fun a b => a.number < b.number) (h : cs.find? p = some c) :
    IsLeast {n | ∃ d ∈ cs, p d = true ∧ d.number = n} c.number := by
  obtain ⟨hp, before, after, rfl, hbefore⟩ := List.find?_eq_some_iff_append.mp h
  refine ⟨⟨c, by simp, hp, rfl⟩, ?_⟩
  rintro n ⟨d, hd, hpd, rfl⟩
  -- The lines before it fail the test, and those behind it have greater numbers.
  rcases List.mem_append.mp hd with hd | hd
  · have := hbefore d hd
    simp [hpd] at this
  · rcases List.mem_cons.mp hd with rfl | hd
    · exact Nat.le_refl _
    · have hlt := (List.pairwise_cons.mp (List.pairwise_append.mp hsorted).2.1).1 d hd
      exact Nat.le_of_lt hlt

/-- A search through one of two corresponding lists finds the partner of what a search
through the other finds. -/
theorem findIdx?_of_find? {R : SourceLine → Instruction → Prop} {cs : List SourceLine}
    {is : List Instruction} {p : SourceLine → Bool} {q : Instruction → Bool} {c : SourceLine}
    (hpairs : List.Forall₂ R cs is) (hpq : ∀ c i, R c i → q i = p c)
    (h : cs.find? p = some c) :
    ∃ k i, is.findIdx? q = some k ∧ is[k]? = some i ∧ R c i := by
  induction hpairs with
  | nil => cases h
  | @cons d i ds js hdi hrest ih =>
    rw [List.findIdx?_cons, hpq d i hdi]
    rw [List.find?_cons] at h
    cases hd : p d with
    | true =>
      rw [hd] at h
      cases h
      exact ⟨0, i, rfl, rfl, hdi⟩
    | false =>
      rw [hd] at h
      obtain ⟨k, j, hk, hj, hcj⟩ := ih h
      exact ⟨k + 1, j, by simp [hk], by simpa using hj, hcj⟩

/-! ### One line -/

section Line

variable {source : Source} {c : SourceLine} {i : Instruction}

/-- A jump that compiles has one parameter. A number is kept as it is, and a name is
replaced by the number of the line it means. -/
theorem call_of_compileLine (h : Catalog.builtin.compileLine source c = .ok i)
    (hname : i.name = Builtin.call.name) :
    ∃ p, c.params = [p] ∧
      (∀ n, integer64? p = some n → i.command = .call n ∧ i.params = [p]) ∧
      (integer64? p = none → ∃ line : Nat, source.target? p c.number = some line ∧
        i.command = .call line ∧ i.params = [toString line]) := by
  obtain ⟨b, -, hprepared, hcount⟩ := Catalog.builtin_of_compileLine h
  have hb : b = .call :=
    Builtin.name_injective ((CommandKind.name_of_prepare_builtin hprepared).symm.trans hname)
  subst hb
  obtain ⟨p, hp⟩ := List.length_eq_one_iff.mp (hcount (.inl rfl))
  refine ⟨p, hp, ?_⟩
  simp only [Builtin.prepare, Builtin.prepareCall, Scope.param?, hp,
    List.getElem?_cons_zero] at hprepared
  cases hnumber : integer64? p with
  | some n =>
    -- A number is the target, and the parameter is kept.
    rw [hnumber] at hprepared
    injection hprepared with hprepared
    injection hprepared with hparams hcommand
    constructor
    · intro m hm
      cases hm
      exact ⟨hcommand.symm, hparams.symm⟩
    · intro hnone
      cases hnone
  | none =>
    -- A name was found among the lines, and its line is written over the parameter.
    rw [hnumber] at hprepared
    constructor
    · intro n hn
      cases hn
    · intro _
      cases htarget : source.target? p c.number with
      | none => simp [Scope.target?, htarget] at hprepared
      | some line =>
        simp only [Scope.target?, htarget, Scope.setParam, List.set_cons_zero] at hprepared
        injection hprepared with hprepared
        injection hprepared with hparams hcommand
        exact ⟨line, rfl, hcommand.symm, hparams.symm⟩

/-- The instruction of a line defines a label exactly when the line is that label. -/
theorem label?_of_compileLine (h : Catalog.builtin.compileLine source c = .ok i)
    (name : String) : (i.label? == some name) = Source.isLabelFor name c := by
  have hiff := Catalog.name_eq_iff_of_compileLine h .label
  obtain ⟨b, hsame, hprepared, -⟩ := Catalog.builtin_of_compileLine h
  rw [Instruction.label?, Source.isLabelFor]
  by_cases hlabel : i.name = Source.labelName
  · rw [if_pos hlabel, show Source.labelName = Builtin.label.name from rfl, hiff.mp hlabel,
      Bool.true_and]
    -- A label keeps its parameters.
    have hb : b = .label := Builtin.name_injective
      ((CommandKind.name_of_prepare_builtin hprepared).symm.trans hlabel)
    subst hb
    simp only [Builtin.prepare, Builtin.prepareLabel] at hprepared
    split at hprepared
    · cases hprepared
    · injection hprepared with hprepared
      injection hprepared with hparams
      rw [hparams]
  · have hno : sameName c.name Source.labelName = false := by
      rw [Bool.eq_false_iff]
      exact fun hyes => hlabel (hiff.mpr hyes)
    rw [if_neg hlabel, hno]
    rfl

/-- A label line that compiles has the name as its only parameter. -/
theorem isLabelFor_iff (h : Catalog.builtin.compileLine source c = .ok i) (name : String) :
    Source.isLabelFor name c = true ↔
      sameName c.name Builtin.label.name = true ∧ c.params = [name] := by
  rw [Source.isLabelFor, Bool.and_eq_true, beq_iff_eq]
  constructor
  · rintro ⟨hsame, hhead⟩
    obtain ⟨b, hb, -, hcount⟩ := Catalog.builtin_of_compileLine h
    have hlabel : b = .label := Builtin.eq_of_sameName (sameName_trans hb hsame)
    obtain ⟨p, hp⟩ := List.length_eq_one_iff.mp (hcount (.inr hlabel))
    rw [hp, List.head?_cons, Option.some_inj] at hhead
    exact ⟨hsame, by rw [hp, hhead]⟩
  · rintro ⟨hsame, hparams⟩
    exact ⟨hsame, by rw [hparams, List.head?_cons]⟩

end Line

/-! ### A whole script -/

section Compiled

variable {lines : List String} {script : Script} {source : Source}
  (hsource : Source.ofLines lines = .ok source)
  (hpairs : List.Forall₂ (fun c i => Catalog.builtin.compileLine source c = .ok i)
    source.lines script.instructions)

include hsource hpairs

/-- The label lines of a script that compiles are those that the search for a target takes
for labels. -/
theorem isLabelLine_iff (name : String) (number : Nat) :
    IsLabelLine lines name number ↔
      ∃ c ∈ source.lines, Source.isLabelFor name c = true ∧ c.number = number := by
  constructor
  · rintro ⟨keyword, hsame, hholds⟩
    have hc := (Source.mem_lines_iff hsource ⟨number, keyword, [name]⟩).mpr hholds
    refine ⟨_, hc, ?_, rfl⟩
    rw [Source.isLabelFor, Bool.and_eq_true]
    exact ⟨hsame, beq_self_eq_true _⟩
  · rintro ⟨c, hc, hlabel, rfl⟩
    obtain ⟨i, -, hi⟩ := exists_of_forall₂ hpairs hc
    obtain ⟨hsame, hparams⟩ := (isLabelFor_iff hi name).mp hlabel
    refine ⟨c.name, hsame, ?_⟩
    rw [← hparams]
    exact (Source.mem_lines_iff hsource c).mp hc

omit hpairs in
/-- The lines with a command of a name are those that the search for a target looks at. -/
theorem isCommandLine_iff (name : String) (own number : Nat) :
    number ≠ own ∧ IsCommandLine lines name number ↔ ∃ c ∈ source.lines,
      (c.number != own && sameName c.name name) = true ∧ c.number = number := by
  constructor
  · rintro ⟨hne, keyword, params, hsame, hholds⟩
    have hc := (Source.mem_lines_iff hsource ⟨number, keyword, params⟩).mpr hholds
    refine ⟨_, hc, ?_, rfl⟩
    rw [Bool.and_eq_true, bne_iff_ne]
    exact ⟨hne, hsame⟩
  · rintro ⟨c, hc, hcommand, rfl⟩
    rw [Bool.and_eq_true, bne_iff_ne] at hcommand
    exact ⟨hcommand.1, c.name, c.params, hcommand.2, (Source.mem_lines_iff hsource c).mp hc⟩

/-- A name that has a label means its first label, and the label table says so too. -/
theorem target?_of_isLabelLine {name : String} {own line : Nat}
    (hlabel : ∃ number, IsLabelLine lines name number)
    (h : source.target? name own = some line) :
    IsLeast {number | IsLabelLine lines name number} line ∧
      script.labels.lookup name = some (script.indexForLine line) := by
  have hsorted :=
    Source.pairwise_number_commandLines (Source.commandLines_of_ofLines hsource).1
  cases hfind : source.lines.find? (Source.isLabelFor name) with
  | none =>
    obtain ⟨number, hnumber⟩ := hlabel
    obtain ⟨c, hc, hclabel, -⟩ := (isLabelLine_iff hsource hpairs name number).mp hnumber
    have := List.find?_eq_none.mp hfind c hc
    exact absurd hclabel this
  | some c =>
    have hline : c.number = line := by
      simpa [Source.target?, hfind] using h
    subst hline
    constructor
    · have hleast := isLeast_of_find? hsorted hfind
      simp only [isLabelLine_iff hsource hpairs]
      exact hleast
    · -- The table is searched by index, and the first label has the line that was found.
      obtain ⟨k, i, hk, hi, hci⟩ := findIdx?_of_find? hpairs
        (fun d j hdj => label?_of_compileLine hdj name) hfind
      rw [Script.lookup_labels, hk, ← Catalog.line_of_compileLine hci]
      rw [Script.indexForLine_line (pairwise_line_of_forall₂ hsource hpairs) hi]

/-- A name without a label means the first line, other than the jump's own, whose command
has that name. -/
theorem target?_of_no_labelLine {name : String} {own line : Nat}
    (hlabel : ¬ ∃ number, IsLabelLine lines name number)
    (h : source.target? name own = some line) :
    IsLeast {number | number ≠ own ∧ IsCommandLine lines name number} line := by
  have hsorted :=
    Source.pairwise_number_commandLines (Source.commandLines_of_ofLines hsource).1
  have hnone : source.lines.find? (Source.isLabelFor name) = none := by
    rw [List.find?_eq_none]
    intro c hc hclabel
    exact hlabel ⟨c.number, (isLabelLine_iff hsource hpairs name _).mpr ⟨c, hc, hclabel, rfl⟩⟩
  cases hfind : source.lines.find? fun c => c.number != own && sameName c.name name with
  | none => simp [Source.target?, hnone, hfind] at h
  | some c =>
    have hline : c.number = line := by
      simpa [Source.target?, hnone, hfind] using h
    subst hline
    have hleast := isLeast_of_find? hsorted hfind
    simp only [isCommandLine_iff hsource]
    exact hleast

/-- A command line has an instruction, so a jump to it stays inside the script. -/
theorem indexForLine_lt_of_mem {c : SourceLine} (hc : c ∈ source.lines) :
    (∃ j ∈ script.instructions, j.line = c.number) ∧
      script.indexForLine c.number < script.length := by
  obtain ⟨j, hj, hcj⟩ := exists_of_forall₂ hpairs hc
  have hline := Catalog.line_of_compileLine hcj
  refine ⟨⟨j, hj, hline⟩, ?_⟩
  obtain ⟨k, hk⟩ := List.mem_iff_getElem?.mp hj
  have hindex := Script.indexForLine_line (pairwise_line_of_forall₂ hsource hpairs) hk
  rw [← hline, hindex]
  exact (List.getElem?_eq_some_iff.mp hk).1

/-- The label table has exactly the names of the label lines. -/
theorem mem_labels_iff (name : String) :
    name ∈ script.labels.map Prod.fst ↔ ∃ number, IsLabelLine lines name number := by
  have hlookup : name ∈ script.labels.map Prod.fst ↔ (script.labels.lookup name).isSome := by
    rw [List.lookup_isSome_iff, List.mem_map]
    constructor
    · rintro ⟨entry, hentry, rfl⟩
      exact ⟨entry, hentry, beq_self_eq_true _⟩
    · rintro ⟨entry, hentry, hname⟩
      exact ⟨entry, hentry, (beq_iff_eq.mp hname).symm⟩
  rw [hlookup, Script.lookup_labels, List.findIdx?_isSome, List.any_eq_true]
  constructor
  · rintro ⟨i, hi, hlabel⟩
    obtain ⟨c, hc, hci⟩ := exists_of_forall₂ hpairs.flip hi
    rw [label?_of_compileLine hci] at hlabel
    exact ⟨c.number, (isLabelLine_iff hsource hpairs name _).mpr ⟨c, hc, hlabel, rfl⟩⟩
  · rintro ⟨number, hnumber⟩
    obtain ⟨c, hc, hlabel, -⟩ := (isLabelLine_iff hsource hpairs name number).mp hnumber
    obtain ⟨i, hi, hci⟩ := exists_of_forall₂ hpairs hc
    exact ⟨i, hi, by rw [label?_of_compileLine hci, hlabel]⟩

end Compiled

/-- The target of a search is the number of a command line. -/
theorem exists_line_of_target? {source : Source} {name : String} {own line : Nat}
    (h : source.target? name own = some line) : ∃ c ∈ source.lines, c.number = line := by
  rw [Source.target?, Option.map_eq_some_iff] at h
  obtain ⟨c, hc, rfl⟩ := h
  rcases Option.or_eq_some_iff.mp hc with hc | ⟨-, hc⟩
  · exact ⟨c, List.mem_of_find?_eq_some hc, rfl⟩
  · exact ⟨c, List.mem_of_find?_eq_some hc, rfl⟩

/-- How a jump to the name `p` is kept: its target is the number of a line with an
instruction, so that the jump does not end the run. -/
structure NamedJump (lines : List String) (script : Script) (i : Instruction) (p : String)
    (target : Nat) : Prop where
  command : i.command = .call target
  /-- The parameter that is kept is the number of the target. -/
  params : i.params = [toString target]
  one_le : 1 ≤ target
  le_lineCount : target ≤ script.lineCount
  instruction : ∃ j ∈ script.instructions, j.line = target
  index_lt : script.indexForLine target < script.length
  /-- A label line with this parameter: the first one is meant, and the label table has its
  index. -/
  label : (∃ number, IsLabelLine lines p number) →
    IsLeast {number | IsLabelLine lines p number} target ∧
      script.labels.lookup p = some (script.indexForLine target)
  /-- No such label line: the first other line with a command of this name is meant. -/
  keyword : (¬ ∃ number, IsLabelLine lines p number) →
    IsLeast {number | number ≠ i.line ∧ IsCommandLine lines p number} target

/-- Jumps and labels of a script that compiles. A jump stands on a line of the text with one
parameter. A parameter that is a number of 64 bits is the target and is kept; any other is a
name and is kept as `NamedJump` says. The label table has exactly the parameters of the label
lines. -/
theorem jump_targets {lines : List String} {script : Script}
    (h : Catalog.builtin.compile lines = .ok script) :
    (∀ i ∈ script.instructions, i.name = Builtin.call.name →
      ∃ keyword p, sameName keyword Builtin.call.name = true ∧
        Holds lines i.line keyword [p] ∧
        (∀ n, integer64? p = some n → i.command = .call n ∧ i.params = [p]) ∧
        (integer64? p = none → ∃ target, NamedJump lines script i p target)) ∧
    ∀ name, name ∈ script.labels.map Prod.fst ↔ ∃ number, IsLabelLine lines name number := by
  obtain ⟨source, hsource, hcount, hpairs⟩ := source_of_compile h
  refine ⟨?_, mem_labels_iff hsource hpairs⟩
  intro i hi hname
  obtain ⟨c, hc, hci⟩ := exists_of_forall₂ hpairs.flip hi
  obtain ⟨p, hp, hnumber, htarget⟩ := call_of_compileLine hci hname
  have hline : i.line = c.number := line_of_compileLine hci
  have hkeyword := (name_eq_iff_of_compileLine hci .call).mp hname
  have hholds := (Source.mem_lines_iff hsource c).mp hc
  rw [hp, ← hline] at hholds
  refine ⟨c.name, p, hkeyword, hholds, hnumber, ?_⟩
  intro hnone
  obtain ⟨target, hsearch, hcommand, hparams⟩ := htarget hnone
  rw [← hline] at hsearch
  obtain ⟨d, hd, rfl⟩ := exists_line_of_target? hsearch
  obtain ⟨hinstruction, hlt⟩ := indexForLine_lt_of_mem hsource hpairs hd
  obtain ⟨hpos, hle⟩ := Source.number_le_lineCount hsource hd
  rw [(Source.commandLines_of_ofLines hsource).2, ← hcount] at hle
  exact ⟨d.number,
    { command := hcommand
      params := hparams
      one_le := hpos
      le_lineCount := hle
      instruction := hinstruction
      index_lt := hlt
      label := fun hlabel => target?_of_isLabelLine hsource hpairs hlabel hsearch
      keyword := fun hlabel => target?_of_no_labelLine hsource hpairs hlabel hsearch }⟩

/-- A jump to a label that is defined twice, behind a blank line. -/
theorem jump_targets_label_twice :
    Catalog.builtin.compile ["call end", "", "Label end", "Label end"] =
        .ok ⟨[⟨1, ["3"], .call 3⟩, ⟨3, ["end"], .label "end"⟩, ⟨4, ["end"], .label "end"⟩], 4⟩ ∧
      integer64? "end" = none ∧
      ∃ target, NamedJump ["call end", "", "Label end", "Label end"]
        ⟨[⟨1, ["3"], .call 3⟩, ⟨3, ["end"], .label "end"⟩, ⟨4, ["end"], .label "end"⟩], 4⟩
        ⟨1, ["3"], .call 3⟩ "end" target := by
  have hcompile : Catalog.builtin.compile ["call end", "", "Label end", "Label end"] =
      .ok ⟨[⟨1, ["3"], .call 3⟩, ⟨3, ["end"], .label "end"⟩, ⟨4, ["end"], .label "end"⟩], 4⟩ := by
    with_unfolding_all rfl
  have hname : integer64? "end" = none := by decide
  obtain ⟨keyword, p, -, ⟨-, hholds⟩, -, hnamed⟩ :=
    (jump_targets hcompile).1 _ List.mem_cons_self rfl
  have hread : LineContent.read "call end" = .command "call" ["end"] := by decide +kernel
  have hp : keyword = "call" ∧ p = "end" := by
    simpa [hread, eq_comm] using hholds
  rw [hp.2] at hnamed
  exact ⟨hcompile, hname, hnamed hname⟩

end InputScript
