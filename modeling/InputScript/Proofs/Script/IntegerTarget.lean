import InputScript.Proofs.Engine.Handover
import InputScript.Proofs.Number.Natural
import InputScript.Proofs.Script.JumpTargets
import InputScript.Proofs.Source.Written

/-!
# `InputScript.Proofs.Script.IntegerTarget`: jumps to a line by its number

A jump whose target is an integer needs no line of that number. Below zero and at zero it goes on
with the next instruction, up to the last line with the first instruction at or behind its target,
and from there on it ends the run. An integer may be written with a sign and with leading zeros
(`WritesInteger`).

All of this holds for integers of 64 bits. Beyond them a target is taken for a name, like any text
that is no number, and a line with such a jump compiles only if a line answers to the name.

* `signed?_of_writesInteger`, `integer64?_of_writesInteger`: which integers are read.
* `Catalog.compileLine_call`: a jump to an integer compiles, whatever else there is in the script.
* `integer_target`: what becomes of a jump to an integer, when it is compiled and when it is run.
-/

set_option autoImplicit false

namespace InputScript

open Number Text

/-! ### Integers in decimal -/

/-- The ways to write an integer in decimal. -/
inductive WritesInteger : Int → List Char → Prop
  | plain {ds : List Char} {n : Nat} : natural? ds = some n → WritesInteger n ds
  | plus {ds : List Char} {n : Nat} : natural? ds = some n → WritesInteger n ('+' :: ds)
  | minus {ds : List Char} {n : Nat} : natural? ds = some n → WritesInteger (-n) ('-' :: ds)

/-- The integers of 64 bits. -/
def IsInteger64 (z : Int) : Prop :=
  -9223372036854775808 ≤ z ∧ z < 9223372036854775808
deriving Decidable

/-- No sign stands in front of digits. -/
theorem ne_cons_of_natural? {ds : List Char} {n : Nat} (h : natural? ds = some n) {c : Char}
    (hc : isDigit c = false) {rest : List Char} : ds ≠ c :: rest := by
  rintro rfl
  have hdigit := (natural?_eq_some_iff.mp h).2.1 c List.mem_cons_self
  rw [hc] at hdigit
  cases hdigit

/-- However an integer is written, it is read, unless it is out of bounds. -/
theorem signed?_of_writesInteger {z : Int} {text : String} (h : WritesInteger z text.toList)
    (bound : Nat) : signed? bound text =
      (some z).filter fun n => decide (-(bound : Int) ≤ n) && decide (n < bound) := by
  rw [signed?]
  congr 1
  generalize text.toList = cs at h
  cases h with
  | plain hds =>
    split
    · exact absurd rfl (ne_cons_of_natural? hds (by decide))
    · exact absurd rfl (ne_cons_of_natural? hds (by decide))
    · rw [hds]
      rfl
  | plus hds =>
    simp only
    rw [hds]
    rfl
  | minus hds =>
    simp only
    rw [hds]
    rfl

/-- An integer is read, however it is written, as long as it is one of 64 bits. -/
theorem integer64?_of_writesInteger {z : Int} {text : String}
    (h : WritesInteger z text.toList) :
    (IsInteger64 z → integer64? text = some z) ∧ (¬IsInteger64 z → integer64? text = none) := by
  rw [integer64?, signed?_of_writesInteger h, Option.filter_some, IsInteger64]
  constructor
  · intro hfits
    rw [if_pos]
    simpa using hfits
  · intro hbeyond
    rw [if_neg]
    simpa using hbeyond

/-- The decimal text of an integer is one way to write it. -/
theorem writesInteger_toString (z : Int) : WritesInteger z (toString z).toList := by
  have htext (n : Nat) : natural? (toString n).toList = some n := by
    rw [show (toString n).toList = Nat.toDigits 10 n from Nat.toList_repr]
    exact natural?_toDigits n
  cases z with
  | ofNat n => exact .plain (htext n)
  | negSucc n =>
    have hminus : (toString (Int.negSucc n)).toList = '-' :: (toString (n + 1)).toList := by
      show ("-" ++ toString (n + 1)).toList = _
      rw [String.toList_append]
      rfl
    rw [hminus]
    exact .minus (htext (n + 1))

/-- An integer may stand without quotes, however it is written. -/
theorem WritesInteger.isWord {z : Int} {cs : List Char} (h : WritesInteger z cs) : IsWord cs := by
  have hdigits {ds : List Char} {n : Nat} (hds : natural? ds = some n) :
      ∀ c ∈ ds, isBlank c = false ∧ c ≠ '#' ∧ c ≠ '"' :=
    fun c hc => noDelimiter_of_isDigit ((natural?_eq_some_iff.mp hds).2.1 c hc)
  cases h with
  | plain hds => exact ⟨(natural?_eq_some_iff.mp hds).1, hdigits hds⟩
  | plus hds | minus hds =>
    refine ⟨List.cons_ne_nil _ _, List.forall_mem_cons.mpr ⟨?_, hdigits hds⟩⟩
    decide

/-- A command and words with a blank in front of each are one way to write the line. -/
theorem writesLine_words {name : String} (hname : IsWord name.toList) {params : List String}
    (hparams : ∀ p ∈ params, IsWord p.toList) : WritesLine name params
      (String.ofList (name.toList ++ params.flatMap fun p => ' ' :: p.toList)) := by
  have hwords : WritesParams params (params.flatMap fun p => ' ' :: p.toList) := by
    induction params with
    | nil => exact .nil
    | cons p params ih =>
      rw [List.forall_mem_cons] at hparams
      exact @WritesParams.cons p params [' '] _ _ (by decide) (by decide) (.bare hparams.1)
        (ih hparams.2)
  have hline := @WritesLine.line name params [] _ [] (by decide) hname hwords (.blank (by decide))
  rwa [List.nil_append, List.append_nil] at hline

/-- A command and an integer with a blank in between are one way to write the line. -/
theorem WritesInteger.writesLine {z : Int} {text : String} (h : WritesInteger z text.toList)
    {name : String} (hname : IsWord name.toList) :
    WritesLine name [text] (name ++ " " ++ text) := by
  have hparams : ∀ p ∈ [text], IsWord p.toList := by simpa using h.isWord
  have hline := writesLine_words hname hparams
  have htext : String.ofList (name.toList ++ [text].flatMap fun p => ' ' :: p.toList) =
      name ++ " " ++ text := by
    rw [String.ext_iff]
    simp
  rwa [htext] at hline

/-! ### Compiling a jump to an integer -/

namespace Catalog

/-- A jump to an integer compiles, and its parameter is kept. -/
theorem compileLine_call {text : String} {z : Int} (h : integer64? text = some z) (number : Nat)
    (source : Source) :
    builtin.compileLine source ⟨number, Builtin.call.name, [text]⟩ =
      .ok ⟨number, [text], .call z⟩ := by
  have hfind : builtin.find? Builtin.call.name =
      some (descriptor .call (.exactly 1) "Call <line|name>") := by
    with_unfolding_all rfl
  have hprepare : Builtin.call.prepare ⟨number, [text], source⟩ = .ok ⟨[text], .call z⟩ := by
    simp [Builtin.prepare, Builtin.prepareCall, Scope.param?, h]
  rw [compileLine_builtin hfind rfl, hprepare]

end Catalog

section Line

variable {text line : String} {before after : List String}
  (hline : WritesLine Builtin.call.name [text] line)

include hline

/-- The line holds the jump. -/
theorem holds_call (name : String) (params : List String) :
    Holds (before ++ line :: after) (before.length + 1) name params ↔
      name = Builtin.call.name ∧ params = [text] := by
  have hread : (before ++ line :: after)[before.length]?.map LineContent.read =
      some (.command Builtin.call.name [text]) := by
    rw [List.getElem?_append_right (Nat.le_refl _), Nat.sub_self, List.getElem?_cons_zero,
      Option.map_some, read_of_writesLine hline]
  rw [Holds, Nat.add_sub_cancel, hread]
  simp [eq_comm]

/-- Where the jump compiles, no compile error is about its line. -/
theorem line?_ne_of_compileLine {i : Instruction}
    (hcompiles : ∀ source, Catalog.builtin.compileLine source
      ⟨before.length + 1, Builtin.call.name, [text]⟩ = .ok i) {err : CompileError}
    (h : Catalog.builtin.compile (before ++ line :: after) = .error err) :
    err.line? ≠ some (before.length + 1) := by
  intro hown
  obtain ⟨number, hdeciding⟩ := Catalog.decidingFault_of_compile h
  obtain rfl : number = before.length + 1 := Option.some.inj (hdeciding.line.symm.trans hown)
  cases hdeciding.fault with
  | openQuote name hopen =>
    have hcall : Holds (before ++ line :: after) (before.length + 1) Builtin.call.name [text] :=
      (holds_call hline _ _).mpr ⟨rfl, rfl⟩
    have hread := hopen.2.symm.trans hcall.2
    cases hread
  | refused name params _ hholds hrefused =>
    obtain ⟨rfl, rfl⟩ := (holds_call hline name params).mp hholds
    have herror := Catalog.compileLine_error_iff.mpr hrefused
    rw [hcompiles] at herror
    cases herror

/-- The jump is one of the instructions of a script that compiles. -/
theorem exists_call_of_compile {script : Script}
    (h : Catalog.builtin.compile (before ++ line :: after) = .ok script) :
    ∃ source i, Source.ofLines (before ++ line :: after) = .ok source ∧ i ∈ script.instructions ∧
      Catalog.builtin.compileLine source ⟨before.length + 1, Builtin.call.name, [text]⟩ = .ok i ∧
      List.Forall₂ (fun c i => Catalog.builtin.compileLine source c = .ok i) source.lines
        script.instructions := by
  obtain ⟨source, hsource, -, hpairs⟩ := Catalog.source_of_compile h
  have hmem := (Source.mem_lines_iff hsource ⟨before.length + 1, Builtin.call.name, [text]⟩).mpr
    ((holds_call hline _ _).mpr ⟨rfl, rfl⟩)
  obtain ⟨i, hi, hcompiled⟩ := Catalog.exists_of_forall₂ hpairs hmem
  exact ⟨source, i, hsource, hi, hcompiled, hpairs⟩

/-- Where the target is no integer of 64 bits, a line must answer to it as to a name. -/
theorem exists_target_of_compile {script : Script} (hname : integer64? text = none)
    (h : Catalog.builtin.compile (before ++ line :: after) = .ok script) :
    ∃ number, IsLabelLine (before ++ line :: after) text number ∨
      number ≠ before.length + 1 ∧ IsCommandLine (before ++ line :: after) text number := by
  obtain ⟨source, i, hsource, hi, hcompiled, hpairs⟩ := exists_call_of_compile hline h
  have hcall : i.name = Builtin.call.name :=
    (Catalog.name_eq_iff_of_compileLine hcompiled .call).mpr (sameName_refl _)
  obtain ⟨p, hp, -, htarget⟩ := call_of_compileLine hcompiled hcall
  obtain rfl : text = p := List.singleton_inj.mp hp
  obtain ⟨number, hnumber, -⟩ := htarget hname
  rw [Source.target?, Option.map_eq_some_iff] at hnumber
  obtain ⟨c, hc, rfl⟩ := hnumber
  refine ⟨c.number, ?_⟩
  rcases Option.or_eq_some_iff.mp hc with hlabel | ⟨-, hcommand⟩
  · exact .inl ((isLabelLine_iff hsource hpairs text _).mpr
      ⟨c, List.mem_of_find?_eq_some hlabel, List.find?_some hlabel, rfl⟩)
  · have hfound := List.find?_some hcommand
    exact .inr ((isCommandLine_iff hsource text _ _).mpr
      ⟨c, List.mem_of_find?_eq_some hcommand, hfound, rfl⟩)

end Line

/-- What becomes of a jump to an integer. The line is written in any way, and so is the integer,
and the line stands among any others. If the integer is one of 64 bits, no compile error is about
the line. In a script that compiles, the jump has that integer for its target, and in every run of
the script on an idle engine it leads on to the next instruction where the target is zero or less,
to the first instruction at or behind the target line where there is one, and else to the end of
the run, as it always does with a target behind the last line. A target beyond 64 bits is a name,
and the script compiles only if a line answers to it. -/
theorem integer_target {z : Int} {text line : String} (hz : WritesInteger z text.toList)
    (hline : WritesLine Builtin.call.name [text] line) (before after : List String) :
    let lines := before ++ line :: after
    let jump : Instruction := ⟨before.length + 1, [text], .call z⟩
    (IsInteger64 z →
      (∀ err, Catalog.builtin.compile lines = .error err → err.line? ≠ some jump.line) ∧
      ∀ script, Catalog.builtin.compile lines = .ok script → jump ∈ script.instructions ∧
        ((script.lineCount : Int) < z → script.targetOf jump.line z = none) ∧
        ∀ (e : Engine) (lineDelay : Span) (ops : List Operation), e.isRunning = false →
          e.LeadsOn script lineDelay ops jump (script.targetOf jump.line z)) ∧
    (¬IsInteger64 z → ∀ script, Catalog.builtin.compile lines = .ok script →
      ∃ number, IsLabelLine lines text number ∨
        number ≠ jump.line ∧ IsCommandLine lines text number) := by
  intro lines jump
  obtain ⟨hfits, hbeyond⟩ := integer64?_of_writesInteger hz
  refine ⟨?_, fun h script => exists_target_of_compile hline (hbeyond h)⟩
  intro h
  have hcompiles := Catalog.compileLine_call (hfits h) (before.length + 1)
  refine ⟨fun err => line?_ne_of_compileLine hline hcompiles, ?_⟩
  intro script hscript
  obtain ⟨source, i, -, hi, hcompiled, -⟩ := exists_call_of_compile hline hscript
  rw [hcompiles source] at hcompiled
  obtain rfl : jump = i := Except.ok.inj hcompiled
  refine ⟨hi, Script.targetOf_eq_none fun j hj => (Catalog.line_bounds_of_compile hscript hj).2, ?_⟩
  intro e lineDelay ops hidle
  obtain ⟨index, hindex⟩ := List.mem_iff_getElem?.mp hi
  have hbuiltin : script.IsBuiltin := Script.IsCompiled.isBuiltin ⟨lines, hscript⟩
  exact Engine.jump_leadsOn hbuiltin (Catalog.sorted_of_compile hscript) hindex rfl hidle
    lineDelay ops

/-- A jump to the line of a comment in front of the last instruction, with a plus sign, with a
comment of its own and in a run that is stopped in a line delay. -/
theorem integer_target_comment_line : ∃ script,
    Catalog.builtin.compile ["Call +3 # over", "MouseClick", "# three", "Stop"] = .ok script ∧
    ⟨1, ["+3"], .call 3⟩ ∈ script.instructions ∧
    ((Engine.new .zero Surroundings.plain).LeadsOn script ⟨5000000⟩ [.yield 2, .stop]
      ⟨1, ["+3"], .call 3⟩ (some ⟨4, [], .stop⟩)) := by
  have hcompile : Catalog.builtin.compile ["Call +3 # over", "MouseClick", "# three", "Stop"] =
      .ok ⟨[⟨1, ["+3"], .call 3⟩, ⟨2, [], .mouseClick .left⟩, ⟨4, [], .stop⟩], 4⟩ := by
    with_unfolding_all rfl
  have hz : WritesInteger 3 "+3".toList := .plus (by decide : natural? ['3'] = some 3)
  have hline : WritesLine Builtin.call.name ["+3"] "Call +3 # over" :=
    @WritesLine.line _ _ [] _ _ (by decide) (by decide)
      (@WritesParams.cons _ _ [' '] _ _ (by decide) (by decide) (.bare hz.isWord) .nil)
      (.comment " over".toList (by decide : IsGap [' ']) (by decide))
  have hfits : IsInteger64 3 := by decide
  obtain ⟨-, hleads⟩ := (integer_target hz hline [] ["MouseClick", "# three", "Stop"]).1 hfits
  obtain ⟨hmem, -, hrun⟩ := hleads _ hcompile
  exact ⟨_, hcompile, hmem, hrun _ _ _ rfl⟩

/-- An integer beyond 64 bits is no target, so not every integer is one. -/
theorem integer_target_beyond_64_bits :
    Catalog.builtin.compile ["Call 9223372036854775808"] =
        .error (.unresolvedTarget "9223372036854775808" 1) ∧
      ¬ ∀ (z : Int) (line : String), WritesLine Builtin.call.name [toString z] line →
        ∀ before after err, Catalog.builtin.compile (before ++ line :: after) = .error err →
          err.line? ≠ some (before.length + 1) := by
  have hcompile : Catalog.builtin.compile ["Call 9223372036854775808"] =
      .error (.unresolvedTarget "9223372036854775808" 1) := by
    with_unfolding_all rfl
  have hline : WritesLine Builtin.call.name [toString (9223372036854775808 : Int)]
      "Call 9223372036854775808" :=
    (writesInteger_toString 9223372036854775808).writesLine (by decide)
  refine ⟨hcompile, ?_⟩
  intro halways
  exact halways 9223372036854775808 _ hline [] [] _ hcompile rfl

end InputScript
