import InputScript.Proofs.Key.Naming
import InputScript.Proofs.Script.Commented
import InputScript.Proofs.Script.Edited

/-!
# `InputScript.Proofs.Script.Respelled`: scripts that differ in spelling

The case of the letters of a keyword does not matter in a script, nor do blanks around a line, nor
whether lines end with a carriage return. The compiler reads the texts with several readers, though,
and compares names in three places: in the catalog, for labels and for the first line of a command.

Each reader of a line is followed with the first word in lower case, `lowerWord`, so that two lines
with the same trimmed text in this form hold the same but for the case of the keyword. What holds of
a line, of a split script and of an error is written with `lowered`: all names that are taken from
the text in lower case.

* `LineContent.lowered_read`: reading a line with its first word in lower case.
* `Source.target?_lowered`, `Catalog.compileLine_lowered`: what is compared does not change.
* `Catalog.compileText_withReturns`: other line ends.
* `Catalog.compile_respelled`: the whole statement, for scripts that compile and those that do not.
-/

set_option autoImplicit false

namespace InputScript

open Text

/-! ### Other spellings -/

/-- A line that is a text between blanks. -/
def Padded (cs : List Char) (line : String) : Prop :=
  ∃ before after, IsGap before ∧ IsGap after ∧ line.toList = before ++ cs ++ after

/-- Two spellings of a line. Its keyword may have letters in the other case, and there may be more
or fewer blanks at either end. -/
inductive Respelled (line line' : String) : Prop
  | intro {word word' rest : List Char} (noBlank : ∀ c ∈ word, isBlank c = false)
      (sameCase : lower word' = lower word) (old : Padded (word ++ rest) line)
      (new : Padded (word' ++ rest) line')

/-- A text in which a carriage return is put before every line feed. -/
def withReturns (text : String) : String :=
  String.ofList (text.toList.flatMap fun c => if c = '\n' then ['\r', '\n'] else [c])

/-! ### Names in lower case -/

/-- A text with its first word in lower case. -/
def lowerWord : List Char → List Char
  | [] => []
  | c :: cs => if isBlank c then c :: cs else c.toLower :: lowerWord cs

/-- A name in lower case. -/
def lowerName (name : String) : String :=
  String.ofList (lower name.toList)

/-- What a line holds, with its keyword in lower case. -/
def LineContent.lowered : LineContent → LineContent
  | nothing => nothing
  | command name params => command (lowerName name) params
  | unclosed name => unclosed (lowerName name)

/-- A command line with its keyword in lower case. -/
def SourceLine.lowered (c : SourceLine) : SourceLine :=
  { c with name := lowerName c.name }

/-- A script that is split, with all keywords in lower case. -/
def Source.lowered (source : Source) : Source :=
  { source with lines := source.lines.map SourceLine.lowered }

/-- An open quote on a line with its keyword in lower case. -/
def UnclosedQuote.lowered (u : UnclosedQuote) : UnclosedQuote :=
  { u with name := lowerName u.name }

/-- An error with the name of the command in lower case: the same kind of error, at the same
line. -/
def CompileError.lowered : CompileError → CompileError
  | unknownCommand name line => unknownCommand (lowerName name) line
  | invalidParameters command line reason => invalidParameters (lowerName command) line reason
  | unresolvedTarget name line => unresolvedTarget name line
  | unreadable path cause => unreadable path cause

theorem lower_lower (cs : List Char) : lower (lower cs) = lower cs := by
  simp [lower, Char.toLower_toLower_eq_toLower]

@[simp] theorem toList_lowerName (name : String) :
    (lowerName name).toList = lower name.toList :=
  String.toList_ofList

@[simp] theorem lowerName_lowerName (name : String) :
    lowerName (lowerName name) = lowerName name := by
  rw [lowerName, toList_lowerName, lower_lower, lowerName]

/-- A name is the same in lower case. -/
theorem sameName_lowerName (name : String) : sameName (lowerName name) name = true := by
  rw [sameName_iff, toList_lowerName, lower_lower]

/-- A name in lower case is compared like the name. -/
@[simp] theorem sameName_lowerName_left (a b : String) :
    sameName (lowerName a) b = sameName a b := by
  rw [sameName, sameName, toList_lowerName, lower_lower]

theorem CompileError.line?_lowered (e : CompileError) : e.lowered.line? = e.line? := by
  cases e <;> rfl

/-! ### Readers of a line with the first word in lower case -/

/-- A text that is empty or begins with a blank has no first word. -/
theorem lowerWord_of_atBlank {cs : List Char} (h : AtBlank cs) : lowerWord cs = cs := by
  cases cs with
  | nil => rfl
  | cons c cs => rw [lowerWord, if_pos (h c rfl)]

theorem lowerWord_cons {c : Char} (h : isBlank c = false) (cs : List Char) :
    lowerWord (c :: cs) = c.toLower :: lowerWord cs := by
  rw [lowerWord, if_neg (by simp [h])]

/-- A run of characters that are no blanks belongs to the first word. -/
theorem lowerWord_append {word : List Char} (h : ∀ c ∈ word, isBlank c = false)
    (rest : List Char) : lowerWord (word ++ rest) = lower word ++ lowerWord rest := by
  induction word with
  | nil => rfl
  | cons c word ih =>
    rw [List.forall_mem_cons] at h
    rw [List.cons_append, lowerWord_cons h.1, ih h.2]
    rfl

/-- With the first word in lower case there is as little of a text as before. -/
theorem lowerWord_nil_or_sharp {cs : List Char} :
    lowerWord cs = [] ∨ (lowerWord cs).head? = some '#' ↔ cs = [] ∨ cs.head? = some '#' := by
  cases cs with
  | nil => rfl
  | cons c cs =>
    rw [lowerWord]
    split
    · rfl
    · simp [toLower_eq_iff (show '#'.isAlpha = false from rfl)]

theorem trimEnd_cons {c : Char} (h : isBlank c = false) (cs : List Char) :
    trimEnd (c :: cs) = c :: trimEnd cs :=
  trimEnd_append_cons h [] cs

/-- Trimming at the end does not look at the case of letters. -/
theorem trimEnd_lowerWord (cs : List Char) : trimEnd (lowerWord cs) = lowerWord (trimEnd cs) := by
  induction cs with
  | nil => rfl
  | cons c cs ih =>
    by_cases hc : isBlank c = true
    · -- There is no first word, and none is left.
      have hcs : AtBlank (c :: cs) := atBlank_cons hc cs
      have hend : AtBlank (trimEnd (c :: cs)) := fun d hd =>
        hcs d (head?_of_isPrefix (trimEnd_isPrefix (c :: cs)) hd)
      rw [lowerWord_of_atBlank hcs, lowerWord_of_atBlank hend]
    · rw [Bool.not_eq_true] at hc
      have hlower : isBlank c.toLower = false := (isBlank_toLower c).trans hc
      rw [lowerWord_cons hc, trimEnd_cons hlower, trimEnd_cons hc, lowerWord_cons hc, ih]

/-- Nor does trimming, unless blanks hide the first word. -/
theorem trim_lowerWord {cs : List Char} (h : ∀ c, cs.head? = some c → isBlank c = false) :
    trim (lowerWord cs) = lowerWord (trim cs) := by
  cases cs with
  | nil => rfl
  | cons c cs =>
    have hc : isBlank c = false := h c rfl
    have hlower : isBlank c.toLower = false := (isBlank_toLower c).trans hc
    have hstart : trimStart (lowerWord (c :: cs)) = lowerWord (c :: cs) := by
      rw [trimStart, lowerWord_cons hc, List.dropWhile_cons_of_neg (by simp [hlower])]
    rw [trim, trim, hstart, trimEnd_lowerWord, trimStart,
      List.dropWhile_cons_of_neg (by simp [hc])]

/-- The reader of comments does not look at the case of letters. -/
theorem beforeComment_lowerWord (inQuotes : Bool) (cs : List Char) :
    beforeComment inQuotes (lowerWord cs) = lowerWord (beforeComment inQuotes cs) := by
  fun_induction beforeComment inQuotes cs with
  | case1 => rfl
  | case2 => rfl
  | case3 inQuotes c r ih =>
    have hword (cs : List Char) : lowerWord ('\\' :: cs) = '\\' :: lowerWord cs :=
      lowerWord_cons rfl cs
    rw [hword, hword]
    by_cases hc : isBlank c = true
    · rw [lowerWord, if_pos hc, lowerWord, if_pos hc, beforeComment]
    · rw [lowerWord, if_neg hc, lowerWord, if_neg hc, beforeComment, ih]
  | case4 inQuotes r ih =>
    have hword (cs : List Char) : lowerWord ('"' :: cs) = '"' :: lowerWord cs :=
      lowerWord_cons rfl cs
    rw [hword, hword, beforeComment, ih]
  | case5 inQuotes c r _ _ _ hcut =>
    obtain ⟨rfl, rfl⟩ : c = '#' ∧ inQuotes = false := by simpa using hcut
    rw [lowerWord_cons rfl]
    exact beforeComment_sharp (lowerWord r)
  | case6 inQuotes c r hlast hescape hne hkeep ih =>
    have hplain : c ≠ '\\' := by
      rintro rfl
      cases r with
      | nil => exact hlast rfl rfl
      | cons d r => exact hescape d r rfl rfl
    have hcomment : c ≠ '#' ∨ inQuotes = true := by
      by_cases hc : c = '#' <;> simp_all
    by_cases hc : isBlank c = true
    · rw [lowerWord, if_pos hc, lowerWord, if_pos hc, beforeComment_cons hplain hne hcomment]
    · -- A letter is none of the characters that this reader looks for, in either case.
      have hother {d : Char} (hd : d.isAlpha = false) : c.toLower ≠ d ↔ c ≠ d :=
        not_congr (toLower_eq_iff hd)
      rw [lowerWord, if_neg hc, lowerWord, if_neg hc, beforeComment_cons, ih]
      · exact (hother rfl).mpr hplain
      · exact (hother rfl).mpr hne
      · exact hcomment.imp_left (hother rfl).mpr

/-- Every text is a word, perhaps an empty one, and what stands behind it. -/
theorem exists_word (cs : List Char) :
    ∃ word rest, cs = word ++ rest ∧ (∀ c ∈ word, isBlank c = false) ∧ AtBlank rest := by
  refine ⟨cs.takeWhile fun c => !isBlank c, cs.dropWhile fun c => !isBlank c,
    List.takeWhile_append_dropWhile.symm, ?_, atBlank_dropWhile cs⟩
  intro c hc
  simpa using List.all_eq_true.mp List.all_takeWhile c hc

/-- A letter in the other case is no blank either. -/
theorem noBlank_of_lower_eq {word word' : List Char} (h : ∀ c ∈ word, isBlank c = false)
    (hcase : lower word' = lower word) : ∀ c ∈ word', isBlank c = false := by
  intro c hc
  have hmem : c.toLower ∈ lower word := hcase ▸ List.mem_map_of_mem hc
  obtain ⟨d, hd, heq⟩ := List.mem_map.mp hmem
  rw [← isBlank_toLower, ← heq, isBlank_toLower]
  exact h d hd

/-- A word in lower case is split off as before. -/
theorem LineContent.ofKept_lowerWord (kept : List Char) :
    LineContent.ofKept (lowerWord kept) = (LineContent.ofKept kept).lowered := by
  obtain ⟨word, rest, rfl, hblank, hrest⟩ := exists_word kept
  have hlower := noBlank_of_lower_eq hblank (lower_lower word)
  rw [lowerWord_append hblank, lowerWord_of_atBlank hrest, ofKept_append hlower hrest,
    ofKept_append hblank hrest]
  cases items rest <;> simp [lowered, lowerName]

/-- A line is read with its keyword in lower case from its text with the first word in lower
case. -/
theorem LineContent.lowered_read (line : String) :
    (LineContent.read line).lowered =
      LineContent.read (String.ofList (lowerWord (trim line.toList))) := by
  have htrimmed := trimmed_trim line.toList
  have htext : trim (String.ofList (lowerWord (trim line.toList))).toList =
      lowerWord (trim line.toList) := by
    rw [String.toList_ofList, trim_lowerWord htrimmed.first, htrimmed.trim_eq]
  by_cases hnothing : trim line.toList = [] ∨ (trim line.toList).head? = some '#'
  · have hlowered : trim (String.ofList (lowerWord (trim line.toList))).toList = [] ∨
        (trim (String.ofList (lowerWord (trim line.toList))).toList).head? = some '#' := by
      rw [htext]
      exact lowerWord_nil_or_sharp.mpr hnothing
    rw [read_eq_nothing.mpr hnothing, read_eq_nothing.mpr hlowered]
    rfl
  · obtain ⟨hne, hsharp⟩ := not_or.mp hnothing
    obtain ⟨hne', hsharp'⟩ := not_or.mp (mt lowerWord_nil_or_sharp.mp hnothing)
    have hkept : ∀ c, (beforeComment false (trim line.toList)).head? = some c →
        isBlank c = false := fun c hc =>
      htrimmed.first c (head?_of_isPrefix (beforeComment_isPrefix false _) hc)
    rw [← htext] at hne' hsharp'
    rw [read_eq hne hsharp, read_eq hne' hsharp', htext, beforeComment_lowerWord,
      trim_lowerWord hkept, ofKept_lowerWord]

/-! ### Two spellings of a line -/

section Spelling

variable {line line' : String}

/-- A text that begins with a word, trimmed and with that word in lower case. -/
theorem lowerWord_trim_append {c : Char} {word : List Char}
    (h : ∀ d ∈ c :: word, isBlank d = false) (rest : List Char) :
    lowerWord (trim (c :: word ++ rest)) = trim (lower (c :: word) ++ lowerWord rest) := by
  have hfirst : ∀ d, (c :: word ++ rest).head? = some d → isBlank d = false := by
    rintro d ⟨⟩
    exact h c List.mem_cons_self
  rw [← trim_lowerWord hfirst, lowerWord_append h]

/-- Two spellings have the same trimmed text once the first word is in lower case. -/
theorem Respelled.lowerWord_trim (h : Respelled line line') :
    lowerWord (trim line'.toList) = lowerWord (trim line.toList) := by
  obtain @⟨word, word', rest, hblank, hcase, ⟨before, after, hbefore, hafter, hline⟩,
    ⟨before', after', hbefore', hafter', hline'⟩⟩ := h
  rw [hline, hline', trim_pad hbefore hafter, trim_pad hbefore' hafter']
  match word, word', hcase with
  | [], [], _ => rfl
  | c :: word, c' :: word', hcase =>
    rw [lowerWord_trim_append hblank, lowerWord_trim_append (noBlank_of_lower_eq hblank hcase),
      hcase]

theorem padded_trim (line : String) : Padded (trim line.toList) line :=
  exists_trim_eq line.toList

/-- Two lines are spellings of each other if they have the same trimmed text once the first word is
in lower case. -/
theorem respelled_iff :
    Respelled line line' ↔ lowerWord (trim line'.toList) = lowerWord (trim line.toList) := by
  refine ⟨Respelled.lowerWord_trim, fun h => ?_⟩
  have hpadded := padded_trim line
  have hpadded' := padded_trim line'
  obtain ⟨word, rest, hsplit, hblank, hrest⟩ := exists_word (trim line.toList)
  obtain ⟨word', rest', hsplit', hblank', hrest'⟩ := exists_word (trim line'.toList)
  have hlower := noBlank_of_lower_eq hblank (lower_lower word)
  have hlower' := noBlank_of_lower_eq hblank' (lower_lower word')
  rw [hsplit, hsplit', lowerWord_append hblank, lowerWord_append hblank',
    lowerWord_of_atBlank hrest, lowerWord_of_atBlank hrest'] at h
  -- The first words end at the first blank on both sides.
  have hword := congrArg (List.takeWhile fun c => !isBlank c) h
  have htail := congrArg (List.dropWhile fun c => !isBlank c) h
  rw [takeWhile_word hlower hrest, takeWhile_word hlower' hrest'] at hword
  rw [dropWhile_word hlower hrest, dropWhile_word hlower' hrest'] at htail
  rw [hsplit] at hpadded
  rw [hsplit', htail] at hpadded'
  exact .intro hblank hword hpadded hpadded'

instance (line line' : String) : Decidable (Respelled line line') :=
  decidable_of_iff' _ respelled_iff

/-- Two spellings of a line hold the same, but for the case of the keyword. -/
theorem Respelled.lowered_read (h : Respelled line line') :
    (LineContent.read line').lowered = (LineContent.read line).lowered := by
  rw [LineContent.lowered_read, LineContent.lowered_read, h.lowerWord_trim]

end Spelling

/-! ### Splitting a text with other keywords -/

namespace Source

/-- What a text is split into, with all keywords in lower case. -/
def lowerSplit (split : Except UnclosedQuote (List SourceLine)) :
    Except UnclosedQuote (List SourceLine) :=
  (split.map (List.map SourceLine.lowered)).mapError UnclosedQuote.lowered

/-- Splitting looks at a line with its keyword in lower case, if all keywords are put in lower case
in the end. -/
theorem lowerSplit_commandLines_cons (number : Nat) (line : String) (rest : List String) :
    lowerSplit (commandLines number (line :: rest)) =
      match (LineContent.read line).lowered with
      | .nothing => lowerSplit (commandLines (number + 1) rest)
      | .unclosed name => .error ⟨number, name⟩
      | .command name params =>
        (lowerSplit (commandLines (number + 1) rest)).map (⟨number, name, params⟩ :: ·) := by
  rw [commandLines]
  cases LineContent.read line with
  | nothing => rfl
  | unclosed name => rfl
  | command name params =>
    dsimp only [LineContent.lowered]
    cases commandLines (number + 1) rest <;> rfl

/-- Two texts whose lines hold the same but for the case of keywords are split alike but for it. -/
theorem lowerSplit_commandLines_congr {lines lines' : List String}
    (h : lines'.map (fun line => (LineContent.read line).lowered) =
      lines.map fun line => (LineContent.read line).lowered) (number : Nat) :
    lowerSplit (commandLines number lines') = lowerSplit (commandLines number lines) := by
  induction lines generalizing lines' number with
  | nil => rw [List.map_eq_nil_iff.mp h]
  | cons line rest ih =>
    obtain ⟨line', rest', rfl, hread, hrest⟩ := List.map_eq_cons_iff.mp h
    rw [lowerSplit_commandLines_cons, lowerSplit_commandLines_cons, ih hrest, hread]

/-- The search for a target does not look at the case of keywords. -/
theorem target?_lowered (source : Source) (name : String) (own : Nat) :
    source.lowered.target? name own = source.target? name own := by
  have hlabel : isLabelFor name ∘ SourceLine.lowered = isLabelFor name := by
    funext c
    simp only [Function.comp_apply, isLabelFor, SourceLine.lowered, sameName_lowerName_left]
  have hcommand : (fun c : SourceLine => c.number != own && sameName c.name name) ∘
      SourceLine.lowered = fun c => c.number != own && sameName c.name name := by
    funext c
    simp only [Function.comp_apply, SourceLine.lowered, sameName_lowerName_left]
  simp only [target?, lowered, List.find?_map, hlabel, hcommand, ← Option.map_or, Option.map_map]
  rfl

end Source

/-! ### Compiling it -/

namespace Catalog

/-- A command line with its keyword in lower case, among others, compiles to the same instruction
or to an error of the same kind. -/
theorem compileLine_lowered (source : Source) (c : SourceLine) :
    (builtin.compileLine source.lowered c.lowered).mapError CompileError.lowered =
      (builtin.compileLine source c).mapError CompileError.lowered := by
  have hfind : builtin.find? c.lowered.name = builtin.find? c.name :=
    find?_of_sameName builtin (sameName_lowerName c.name)
  rw [compileLine_of_targets source.target?_lowered, compileLine, compileLine, hfind]
  cases builtin.find? c.name with
  | none =>
    show Except.error (CompileError.unknownCommand (lowerName (lowerName c.name)) c.number) =
      Except.error (.unknownCommand (lowerName c.name) c.number)
    rw [lowerName_lowerName]
  | some d => rfl

/-- Lines are compiled in order also up to the case of names in errors. -/
theorem mapError_compileLines_cons (source : Source) (c : SourceLine) (cs : List SourceLine) :
    (builtin.compileLines source (c :: cs)).mapError CompileError.lowered =
      ((builtin.compileLine source c).mapError CompileError.lowered).bind fun i =>
        ((builtin.compileLines source cs).mapError CompileError.lowered).map (i :: ·) := by
  rw [compileLines]
  cases builtin.compileLine source c with
  | error e => rfl
  | ok i => cases builtin.compileLines source cs <;> rfl

/-- All command lines compile alike with their keywords in lower case. -/
theorem compileLines_lowered (source : Source) (cs : List SourceLine) :
    (builtin.compileLines source.lowered (cs.map SourceLine.lowered)).mapError
        CompileError.lowered =
      (builtin.compileLines source cs).mapError CompileError.lowered := by
  induction cs with
  | nil => rfl
  | cons c cs ih =>
    rw [List.map_cons, mapError_compileLines_cons, mapError_compileLines_cons,
      compileLine_lowered, ih]

/-- A text is compiled from what it is split into, with all keywords in lower case, if the names in
errors are put in lower case in the end. -/
theorem mapError_compile (lines : List String) :
    (builtin.compile lines).mapError CompileError.lowered =
      match Source.lowerSplit (Source.commandLines 1 lines) with
      | .error u => .error (.invalidParameters u.name u.number .unclosedQuote)
      | .ok cs =>
        ((builtin.compileLines ⟨cs, lines.length⟩ cs).mapError CompileError.lowered).map
          (⟨·, lines.length⟩) := by
  rw [compile, Source.ofLines]
  cases Source.commandLines 1 lines with
  | error u => rfl
  | ok cs =>
    have hlines := compileLines_lowered ⟨cs, lines.length⟩ cs
    show _ = ((builtin.compileLines (Source.lowered ⟨cs, lines.length⟩)
      (cs.map SourceLine.lowered)).mapError CompileError.lowered).map _
    rw [hlines]
    dsimp only
    cases builtin.compileLines ⟨cs, lines.length⟩ cs <;> rfl

/-- Texts in other spellings compile to the same script or to errors of the same kind. -/
theorem mapError_compile_respelled {lines lines' : List String}
    (h : List.Forall₂ Respelled lines lines') :
    (builtin.compile lines').mapError CompileError.lowered =
      (builtin.compile lines).mapError CompileError.lowered := by
  have hreads : lines'.map (fun line => (LineContent.read line).lowered) =
      lines.map fun line => (LineContent.read line).lowered := by
    induction h with
    | nil => rfl
    | cons hline _ ih => rw [List.map_cons, List.map_cons, hline.lowered_read, ih]
  rw [mapError_compile, mapError_compile, Source.lowerSplit_commandLines_congr hreads,
    h.length_eq]

end Catalog

/-! ### Other line ends -/

/-- A carriage return at the end of a line does not change what is read of it. -/
theorem read_dropReturn (cs : List Char) :
    LineContent.read (String.ofList (dropReturn cs)) = LineContent.read (String.ofList cs) := by
  rw [dropReturn]
  split
  · rename_i hlast
    have hreturn : IsGap ['\r'] := by decide
    have hcs : [] ++ cs.dropLast ++ ['\r'] = cs := List.dropLast_append_getLast? _ hlast
    have htrim := trim_pad (List.forall_mem_nil _) hreturn cs.dropLast
    rw [hcs] at htrim
    rw [LineContent.read, LineContent.read, String.toList_ofList, String.toList_ofList, htrim]
  · rfl

theorem dropReturn_concat (cs : List Char) : dropReturn (cs ++ ['\r']) = cs := by
  rw [dropReturn, List.getLast?_concat, List.dropLast_concat]
  rfl

/-- The pieces of a text between its line feeds get a carriage return each, but for the last one. -/
theorem splitOn_withReturns (text : String) :
    (withReturns text).toList.splitOn '\n' =
      (text.toList.splitOn '\n').dropLast.map (· ++ ['\r']) ++
        [(text.toList.splitOn '\n').getLastD []] := by
  rw [withReturns, String.toList_ofList]
  generalize text.toList = cs
  induction cs with
  | nil => rfl
  | cons c cs ih =>
    obtain ⟨first, rest, hsplit⟩ := List.exists_cons_of_ne_nil (List.splitOn_ne_nil '\n' cs)
    rw [hsplit] at ih
    rw [List.flatMap_cons, List.splitOn_cons_eq_if_modifyHead c cs, hsplit]
    by_cases hc : c = '\n'
    · -- The line feed ends an empty piece, and the piece before it in the other text is a return.
      have hreturn : '\n' ∉ ['\r'] := by decide
      subst hc
      rw [if_pos rfl, if_pos (by rfl), List.cons_append, List.singleton_append,
        ← List.singleton_append, List.splitOn_append_cons_self_of_not_mem hreturn, ih]
      rfl
    · have hne : ¬ (c == '\n') = true := by simpa using hc
      rw [if_neg hc, if_neg hne, List.singleton_append, List.splitOn_cons_eq_if_modifyHead,
        if_neg hne, ih]
      cases rest <;> rfl

/-- With carriage returns before its line feeds a text has lines that are read as before. -/
theorem read_lines_withReturns (text : String) :
    (lines (withReturns text)).map LineContent.read = (lines text).map LineContent.read := by
  have hdrop : dropReturn ∘ (· ++ ['\r']) = id := funext dropReturn_concat
  have hread : LineContent.read ∘ String.ofList ∘ dropReturn = LineContent.read ∘ String.ofList :=
    funext read_dropReturn
  rw [lines, lines, linesOf, linesOf, splitOn_withReturns, List.dropLast_concat,
    List.getLastD_concat]
  simp only [List.map_append, List.map_map, hdrop, hread, Function.comp_id]

namespace Catalog

/-- Whether lines end with a carriage return does not matter, for any catalog. -/
theorem compileText_withReturns (catalog : Catalog) (text : String) :
    catalog.compileText (withReturns text) = catalog.compileText text :=
  compile_congr_read (read_lines_withReturns text) catalog

/-! ### The whole statement -/

/-- The spelling of a text does not matter. The keywords of a text may be written in other cases
and its lines may get blanks at their ends or lose them: if it compiled, it compiles to the same
script, and if it did not, there is an error of the same kind at the same line. With a carriage
return before every line feed a text compiles to the same as without. -/
theorem compile_respelled {lines lines' : List String} (h : List.Forall₂ Respelled lines lines')
    (text : String) :
    (∀ script, builtin.compile lines = .ok script → builtin.compile lines' = .ok script) ∧
    (∀ e, builtin.compile lines = .error e → ∃ e', builtin.compile lines' = .error e' ∧
      e'.lowered = e.lowered ∧ e'.line? = e.line?) ∧
    builtin.compileText (withReturns text) = builtin.compileText text := by
  have hsame := mapError_compile_respelled h
  refine ⟨?_, ?_, compileText_withReturns builtin text⟩
  · intro script hscript
    rw [hscript] at hsame
    cases hnew : builtin.compile lines' with
    | ok script' =>
      rw [hnew] at hsame
      exact hsame
    | error e' =>
      rw [hnew] at hsame
      cases hsame
  · intro e he
    rw [he] at hsame
    cases hnew : builtin.compile lines' with
    | ok script' =>
      rw [hnew] at hsame
      cases hsame
    | error e' =>
      rw [hnew] at hsame
      have hlowered : e'.lowered = e.lowered := Except.error.inj hsame
      exact ⟨e', rfl, hlowered, by rw [← e'.line?_lowered, hlowered, e.line?_lowered]⟩

/-- A pause and a jump to it are written in other cases and with other blanks, and so is a command
that nobody knows. -/
theorem compile_respelled_pause : ∃ script e e',
    List.Forall₂ Respelled ["Wait 5", "# go on", "Call WAIT"]
      ["  wAIT 5 ", "# go on\t", "\tcALL WAIT"] ∧
    builtin.compile ["Wait 5", "# go on", "Call WAIT"] = .ok script ∧
    script.instructions.map Instruction.params = [["5"], ["1"]] ∧
    builtin.compile ["  wAIT 5 ", "# go on\t", "\tcALL WAIT"] = .ok script ∧
    List.Forall₂ Respelled ["Wait 5", "Fly away"] ["WAIT 5\r", "fly away"] ∧
    builtin.compile ["Wait 5", "Fly away"] = .error e ∧
    builtin.compile ["WAIT 5\r", "fly away"] = .error e' ∧ e'.lowered = e.lowered ∧
    e'.line? = some 2 ∧
    withReturns "Wait 5\nCall WAIT\n" = "Wait 5\r\nCall WAIT\r\n" ∧
    builtin.compileText "Wait 5\r\nCall WAIT\r\n" =
      builtin.compileText "Wait 5\nCall WAIT\n" := by
  have hpause : List.Forall₂ Respelled ["Wait 5", "# go on", "Call WAIT"]
      ["  wAIT 5 ", "# go on\t", "\tcALL WAIT"] := by
    decide +kernel
  have hunknown : List.Forall₂ Respelled ["Wait 5", "Fly away"] ["WAIT 5\r", "fly away"] := by
    decide +kernel
  have hcompile : builtin.compile ["Wait 5", "# go on", "Call WAIT"] =
      .ok ⟨[⟨1, ["5"], .wait (.ofMillis 5) (.ofMillis 5)⟩, ⟨3, ["1"], .call 1⟩], 3⟩ := by
    with_unfolding_all rfl
  have herror : builtin.compile ["Wait 5", "Fly away"] = .error (.unknownCommand "Fly" 2) := by
    with_unfolding_all rfl
  have hreturns : withReturns "Wait 5\nCall WAIT\n" = "Wait 5\r\nCall WAIT\r\n" := by
    decide +kernel
  obtain ⟨hsame, -, htext⟩ := compile_respelled hpause "Wait 5\nCall WAIT\n"
  obtain ⟨-, hkind, -⟩ := compile_respelled hunknown ""
  obtain ⟨e', he', hlowered, hline⟩ := hkind _ herror
  rw [hreturns] at htext
  exact ⟨_, _, e', hpause, hcompile, rfl, hsame _ hcompile, hunknown, herror, he', hlowered, hline,
    hreturns, htext⟩

end Catalog

end InputScript
