import InputScript.Proofs.Script.IntegerTarget
import InputScript.Proofs.Script.Listing
import InputScript.Proofs.Span.Milliseconds

/-!
# `InputScript.Proofs.Source.TypedText`: a line that types a text

Any text can be typed by a script of one line. Between the double quotes four characters are
spelled with a backslash: the backslash itself, the double quote, the line feed and the tab. No
line feed is left in the line, so it stays one line whatever the text is.

* `writesBody_spell`: the spelling is one of the ways of the format.
* `compileText_typingLine`: the line compiles to the command that types the text.
-/

set_option autoImplicit false

namespace InputScript

open Catalog Number Text

/-! ### Spelling -/

/-- A character as it is spelled between two double quotes. -/
def Item.spellChar : Char → List Char
  | '\\' => ['\\', '\\']
  | '"' => ['\\', '"']
  | '\n' => ['\\', 'n']
  | '\t' => ['\\', 't']
  | c => [c]

/-- A text as it is spelled between two double quotes. -/
def Item.spell (text : List Char) : List Char :=
  text.flatMap Item.spellChar

theorem writesChar_spellChar (c : Char) : WritesChar c (Item.spellChar c) := by
  unfold Item.spellChar
  split
  · exact .escaped (.inl rfl)
  · exact .escaped (.inr rfl)
  · exact .lineFeed
  · exact .tab
  · rename_i hbackslash hquote _ _
    exact .plain hbackslash hquote

/-- The spelling is a way to write the text. -/
theorem writesBody_spell (text : List Char) : WritesBody text (Item.spell text) := by
  induction text with
  | nil => exact .nil
  | cons c rest ih => exact .cons (writesChar_spellChar c) ih

/-- No line feed is left in a spelling. -/
theorem lineFeed_notMem_spell (text : List Char) : '\n' ∉ Item.spell text := by
  intro h
  obtain ⟨c, -, hc⟩ := List.mem_flatMap.mp h
  revert hc
  unfold Item.spellChar
  split
  · decide
  · decide
  · decide
  · decide
  · rename_i hfeed _
    simpa using fun heq => hfeed heq.symm

/-! ### The line -/

/-- The ways to write the delay behind the text, and the milliseconds that it stands for. A delay
that is left out is none, and else it is a word that is read as so many. -/
inductive WritesDelay : Nat → List String → List Char → Prop
  | absent : WritesDelay 0 [] []
  | word {millis : Nat} {raw : String} : IsWord raw.toList →
      Span.parse raw = .ok (.ofMillis millis) → WritesDelay millis [raw] (' ' :: raw.toList)

/-- The line that types a text, with a delay behind it. -/
def typingLine (text : String) (delay : List Char) : String :=
  String.ofList (Builtin.typeText.name.toList ++
    ([' '] ++ ('"' :: (Item.spell text.toList ++ ['"']) ++ delay)))

/-- Digits of a number below `2 ^ 64` are a way to write as many milliseconds. -/
theorem writesDelay_of_natural? {raw : String} {n : Nat} (hdigits : natural? raw.toList = some n)
    (h : n < bound64) : WritesDelay n [raw] (' ' :: raw.toList) := by
  have hnumber : WritesNatural n raw.toList :=
    (writesNatural_iff fun _ => ne_cons_of_natural? hdigits (by decide)).mpr hdigits
  have hmillis : Span.parse raw = .ok (.ofMillis n) :=
    (Span.parse_iff hnumber.writesMillis).mpr ⟨h, rfl⟩
  exact .word (WritesInteger.plain hdigits).isWord hmillis

variable {millis : Nat} {params : List String} {written : List Char}

theorem WritesDelay.writesParams (h : WritesDelay millis params written) :
    WritesParams params written := by
  cases h with
  | absent => exact .nil
  | word hword hparse =>
    have hwritten :=
      WritesParams.cons (by decide : IsGap [' ']) (List.cons_ne_nil _ _) (.bare hword) .nil
    rw [List.append_nil] at hwritten
    exact hwritten

theorem read_typingLine (text : String) (h : WritesDelay millis params written) :
    LineContent.read (typingLine text written) =
      .command Builtin.typeText.name (text :: params) := by
  have hnone : IsGap [] := by decide
  have hparams : WritesParams (text :: params) _ :=
    .cons (by decide : IsGap [' ']) (List.cons_ne_nil _ _) (.quoted (writesBody_spell text.toList))
      h.writesParams
  have hline := WritesLine.line hnone (Builtin.isPlainName .typeText).isWord hparams (.blank hnone)
  rw [List.nil_append, List.append_nil] at hline
  exact read_of_writesLine hline

/-- The line is the only line of its text. -/
theorem lines_typingLine (text : String) (h : WritesDelay millis params written) :
    Text.lines (typingLine text written) = [typingLine text written] := by
  have hdelay : '\n' ∉ written := by
    cases h with
    | absent => exact List.not_mem_nil
    | word hword _ =>
      intro hmem
      rcases List.mem_cons.mp hmem with hfeed | hmem
      · cases hfeed
      · have := (hword.plain _ hmem).1
        cases this
  have hfeed : '\n' ∉ (typingLine text written).toList := by
    have hspell := lineFeed_notMem_spell text.toList
    rw [typingLine, String.toList_ofList]
    simp [hdelay, hspell, Builtin.name]
  have hne : (typingLine text written).toList ≠ [] := by
    rw [typingLine, String.toList_ofList]
    simp
  rw [Text.lines, Text.linesOf, List.splitOn_eq_singleton hfeed]
  simp [hne]

/-- The line compiles to the one command that types the text. -/
theorem compileText_typingLine (text : String) (h : WritesDelay millis params written) :
    builtin.compileText (typingLine text written) =
      .ok ⟨[⟨1, text :: params, .typeText text (.ofMillis millis)⟩], 1⟩ := by
  have hread := read_typingLine text h
  have hsource : Source.ofLines [typingLine text written] =
      .ok ⟨[⟨1, Builtin.typeText.name, text :: params⟩], 1⟩ := by
    simp [Source.ofLines, Source.commandLines, hread]
  have hcompile (source : Source) :
      builtin.compileLine source ⟨1, Builtin.typeText.name, text :: params⟩ =
        .ok ⟨1, text :: params, .typeText text (.ofMillis millis)⟩ := by
    have hfind : builtin.find? Builtin.typeText.name =
        some (descriptor .typeText ⟨1, 2⟩ "KeyPressText \"text\" [delay ms]") := by
      rfl
    refine compileLine_ok_iff.mpr ⟨_, ⟨text :: params, .typeText text (.ofMillis millis)⟩, hfind,
      ?_, ?_, rfl⟩
    · cases h <;> rfl
    · cases h with
      | absent => rfl
      | word _ hparse =>
        show Builtin.prepareTypeText _ = _
        simp [Builtin.prepareTypeText, Scope.spanD, Scope.param?, Scope.span, hparse]
        rfl
  rw [compileText, lines_typingLine text h, compile, hsource]
  dsimp only
  rw [compileLines, hcompile]
  rfl

end InputScript
