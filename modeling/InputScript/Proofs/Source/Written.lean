import InputScript.Proofs.Script.Faults
import InputScript.Proofs.Source.Spelling

/-!
# `InputScript.Proofs.Source.Written`: every way to write a command line is read back

A command line may be written in many ways: with any gaps, each parameter with or without
quotes, a line feed or a tab in quotes as it is or escaped, and a comment at the end.
`WritesLine` is the grammar of these ways. It asks little of a bare word: a backslash may stand
in it anywhere, at its end too, where the reader of comments takes the blank behind it for
escaped.

* `WritesBody.isBody`, `WritesBody.unescape_eq`: a text between quotes.
* `WritesParams.exists_spells`, `WritesParams.beforeComment_append`: the readers of parameters
  and of comments, over all parameters of a line.
* `read_of_writesLine`: a line, whatever way it is written.
* `ofLines_of_writesLine`: the line among the other lines of a script.
-/

set_option autoImplicit false

namespace InputScript

open Text

/-! ### The format -/

/-- The ways to write a character between double quotes. -/
inductive WritesChar : Char → List Char → Prop
  | plain {c : Char} : c ≠ '\\' → c ≠ '"' → WritesChar c [c]
  | escaped {c : Char} : c = '\\' ∨ c = '"' → WritesChar c ['\\', c]
  | lineFeed : WritesChar '\n' ['\\', 'n']
  | tab : WritesChar '\t' ['\\', 't']

/-- The ways to write a text between double quotes. -/
inductive WritesBody : List Char → List Char → Prop
  | nil : WritesBody [] []
  | cons {c : Char} {written text body : List Char} :
      WritesChar c written → WritesBody text body → WritesBody (c :: text) (written ++ body)

/-- A text that may stand without quotes. -/
structure IsWord (text : List Char) : Prop where
  ne_nil : text ≠ []
  plain : ∀ c ∈ text, isBlank c = false ∧ c ≠ '#' ∧ c ≠ '"'

instance (text : List Char) : Decidable (IsWord text) :=
  decidable_of_iff
    (text ≠ [] ∧ text.all (fun c => !isBlank c && c != '#' && c != '"') = true)
    ⟨fun h => ⟨h.1, by simpa [and_assoc] using h.2⟩,
      fun h => ⟨h.ne_nil, by simpa [and_assoc] using h.plain⟩⟩

/-- The ways to write a parameter. -/
inductive WritesParam (param : String) : List Char → Prop
  | bare : IsWord param.toList → WritesParam param param.toList
  | quoted {body : List Char} :
      WritesBody param.toList body → WritesParam param ('"' :: (body ++ ['"']))

/-- The ways to write parameters, each behind a gap. -/
inductive WritesParams : List String → List Char → Prop
  | nil : WritesParams [] []
  | cons {param : String} {params : List String} {gap written rest : List Char} :
      IsGap gap → gap ≠ [] → WritesParam param written → WritesParams params rest →
      WritesParams (param :: params) (gap ++ (written ++ rest))

/-- What may stand behind the parameters: blanks, or a comment behind a gap. -/
inductive IsTail : List Char → Prop
  | blank {gap : List Char} : IsGap gap → IsTail gap
  | comment {gap : List Char} (text : List Char) :
      IsGap gap → gap ≠ [] → IsTail (gap ++ '#' :: text)

/-- The ways to write a command line. -/
inductive WritesLine (name : String) (params : List String) : String → Prop
  | line {lead args tail : List Char} :
      IsGap lead → IsWord name.toList → WritesParams params args → IsTail tail →
      WritesLine name params (String.ofList (lead ++ (name.toList ++ args ++ tail)))

/-! ### Between double quotes -/

theorem WritesChar.isBody_append {c : Char} {written body : List Char} (h : WritesChar c written)
    (hbody : Item.IsBody body) : Item.IsBody (written ++ body) := by
  cases h with
  | plain hescape hquote => exact .plain hescape hquote hbody
  | escaped => exact .escaped c hbody
  | lineFeed => exact .escaped 'n' hbody
  | tab => exact .escaped 't' hbody

/-- What is written for a character stands for it. -/
theorem WritesChar.unescape_append {c : Char} {written : List Char} (h : WritesChar c written)
    (body : List Char) : Item.unescape (written ++ body) = c :: Item.unescape body := by
  cases h with
  | plain hescape =>
    rw [List.singleton_append, Item.unescape]
    exact fun _ _ hc => absurd hc hescape
  | escaped hc =>
    -- The two characters that are escaped stand for themselves.
    rcases hc with rfl | rfl <;> rfl
  | lineFeed => rfl
  | tab => rfl

theorem WritesBody.isBody {text body : List Char} (h : WritesBody text body) :
    Item.IsBody body := by
  induction h with
  | nil => exact .nil
  | cons hchar _ ih => exact hchar.isBody_append ih

theorem WritesBody.unescape_eq {text body : List Char} (h : WritesBody text body) :
    Item.unescape body = text := by
  induction h with
  | nil => rfl
  | cons hchar _ ih => rw [hchar.unescape_append, ih]

/-! ### Words and parameters -/

theorem IsWord.notMem_comment {text : List Char} (h : IsWord text) : '#' ∉ text :=
  fun hmem => (h.plain '#' hmem).2.1 rfl

theorem IsWord.notMem_quote {text : List Char} (h : IsWord text) : '"' ∉ text :=
  fun hmem => (h.plain '"' hmem).2.2 rfl

theorem IsWord.isBare {text : List Char} (h : IsWord text) : Item.IsBare text where
  ne_nil := h.ne_nil
  noBlank := fun c hc => (h.plain c hc).1
  noQuote := fun hfirst => h.notMem_quote (List.mem_of_mem_head? hfirst)

/-- No comment begins in a word, and none is hidden behind it. -/
theorem IsWord.beforeComment_append {word : List Char} (h : IsWord word) {r : List Char}
    (hr : AtBlank r) : beforeComment false (word ++ r) = word ++ beforeComment false r := by
  rw [beforeComment_word h.notMem_comment hr, quoteMarks_eq_zero h.notMem_quote, openAfter]

/-- A parameter is one item, and this item stands for it. -/
theorem WritesParam.exists_spells {param : String} {written : List Char}
    (h : WritesParam param written) {rest : List Char} {is : List Item} (hrest : AtBlank rest)
    (hspells : Spells rest is) :
    ∃ item : Item, item.value = param ∧ Spells (written ++ rest) (item :: is) := by
  cases h with
  | bare hword => exact ⟨.bare param.toList, String.ofList_toList, .bare hword.isBare hrest hspells⟩
  | @quoted body hbody =>
    refine ⟨.quoted body, ?_, ?_⟩
    · rw [Item.value, hbody.unescape_eq, String.ofList_toList]
    · rw [List.cons_append, List.append_assoc]
      exact .quoted hbody.isBody hspells

/-- No comment begins in a parameter. -/
theorem WritesParam.beforeComment_append {param : String} {written : List Char}
    (h : WritesParam param written) {rest : List Char} (hrest : AtBlank rest) :
    beforeComment false (written ++ rest) = written ++ beforeComment false rest := by
  cases h with
  | bare hword => exact hword.beforeComment_append hrest
  | @quoted body hbody =>
    rw [List.cons_append, List.append_assoc, List.singleton_append,
      beforeComment_quoted hbody.isBody (.inr rfl)]
    simp

/-- A parameter ends with no blank. -/
theorem WritesParam.exists_last {param : String} {written : List Char}
    (h : WritesParam param written) : ∃ c, written.getLast? = some c ∧ isBlank c = false := by
  cases h with
  | bare hword =>
    refine ⟨_, List.getLast?_eq_some_getLast hword.ne_nil, ?_⟩
    exact (hword.plain _ (List.getLast_mem hword.ne_nil)).1
  | @quoted body =>
    refine ⟨'"', ?_, by decide⟩
    rw [← List.cons_append, List.getLast?_concat]

theorem WritesParams.atBlank {params : List String} {args : List Char}
    (h : WritesParams params args) : AtBlank args := by
  cases h with
  | nil => exact atBlank_nil
  | cons hgap hne => exact hgap.atBlank_append hne _

/-- The reader of parameters finds one item for each parameter. -/
theorem WritesParams.exists_spells {params : List String} {args : List Char}
    (h : WritesParams params args) : ∃ is, is.map Item.value = params ∧ Spells args is := by
  induction h with
  | nil => exact ⟨[], rfl, .nil⟩
  | cons hgap _ hparam hparams ih =>
    obtain ⟨is, rfl, hspells⟩ := ih
    obtain ⟨item, rfl, hitem⟩ := hparam.exists_spells hparams.atBlank hspells
    exact ⟨item :: is, rfl, hitem.gap_append hgap⟩

/-- No comment begins in the parameters. -/
theorem WritesParams.beforeComment_append {params : List String} {args : List Char}
    (h : WritesParams params args) {rest : List Char} (hrest : AtBlank rest) :
    beforeComment false (args ++ rest) = args ++ beforeComment false rest := by
  induction h with
  | nil => rfl
  | cons hgap _ hparam hparams ih =>
    rw [List.append_assoc, List.append_assoc, beforeComment_gap hgap,
      hparam.beforeComment_append (hparams.atBlank.append hrest), ih]
    simp

/-- Parameters end with no blank. -/
theorem WritesParams.last {params : List String} {args : List Char} (h : WritesParams params args) :
    ∀ c, args.getLast? = some c → isBlank c = false := by
  induction h with
  | nil =>
    intro c hc
    cases hc
  | cons _ _ hparam _ ih =>
    intro c hc
    obtain ⟨d, hlast, hd⟩ := hparam.exists_last
    rw [List.getLast?_append, List.getLast?_append, hlast] at hc
    -- What stands last is in the other parameters, if there are any.
    cases hrest : List.getLast? _ with
    | none =>
      rw [hrest] at hc
      cases hc
      exact hd
    | some e =>
      rw [hrest] at hc
      cases hc
      exact ih _ hrest

/-! ### The whole line -/

theorem IsTail.atBlank {tail : List Char} (h : IsTail tail) : AtBlank tail := by
  cases h with
  | blank hgap => exact hgap.atBlank
  | comment text hgap hne => exact hgap.atBlank_append hne _

/-- Before the comment of a tail there is a gap. -/
theorem IsTail.isGap_beforeComment {tail : List Char} (h : IsTail tail) :
    IsGap (beforeComment false tail) := by
  cases h with
  | blank hgap =>
    have hkept := beforeComment_gap hgap false []
    rw [List.append_nil] at hkept
    rw [hkept]
    exact (List.append_nil tail).symm ▸ hgap
  | comment text hgap =>
    rw [beforeComment_gap hgap, beforeComment_sharp, List.append_nil]
    exact hgap

/-- Trimming a line shortens the gaps around it and, where it ends with a comment, the comment. -/
theorem IsTail.exists_trim_eq {lead core tail : List Char} (hlead : IsGap lead)
    (hcore : Trimmed core) (hne : core ≠ []) (h : IsTail tail) :
    ∃ tail', IsTail tail' ∧ trim (lead ++ (core ++ tail)) = core ++ tail' := by
  cases h with
  | blank hgap =>
    refine ⟨[], .blank (by simp [IsGap]), ?_⟩
    rw [trim, hlead.trimStart_append, hcore.trimStart_append hne, hgap.trimEnd_append,
      hcore.trimEnd_eq, List.append_nil]
  | @comment gap text hgap hgapne =>
    exact ⟨gap ++ '#' :: trimEnd text, .comment _ hgap hgapne,
      hcore.trim_append_cons hne hlead (by decide) gap text⟩

/-- A name and parameters have no blank at either end. -/
theorem WritesParams.trimmed {name : List Char} {params : List String} {args : List Char}
    (h : WritesParams params args) (hname : IsWord name) : Trimmed (name ++ args) := by
  obtain ⟨first, rest, rfl⟩ := List.exists_cons_of_ne_nil hname.ne_nil
  constructor
  · rintro _ ⟨⟩
    exact (hname.plain first List.mem_cons_self).1
  · intro c hc
    rw [List.getLast?_append] at hc
    cases hlast : args.getLast? with
    | none =>
      rw [hlast] at hc
      exact (hname.plain c (List.mem_of_getLast? hc)).1
    | some d =>
      rw [hlast] at hc
      cases hc
      exact h.last c hlast

/-- A command line is read back, whatever way it is written. -/
theorem read_of_writesLine {name line : String} {params : List String}
    (h : WritesLine name params line) : LineContent.read line = .command name params := by
  obtain @⟨lead, args, tail, hlead, hname, hparams, htail⟩ := h
  have hcore := hparams.trimmed hname
  have hne : name.toList ++ args ≠ [] := by simp [hname.ne_nil]
  obtain ⟨tail', htail', htrim⟩ := htail.exists_trim_eq hlead hcore hne
  have hhead : (name.toList ++ args ++ tail').head? ≠ some '#' := by
    obtain ⟨first, rest, hfirst⟩ := List.exists_cons_of_ne_nil hname.ne_nil
    have hplain := hname.plain first (hfirst ▸ List.mem_cons_self)
    simp [hfirst, hplain.2.1]
  -- The reader of comments cuts off the comment, and trimming the gap in front of it.
  have hkept : trim (beforeComment false (name.toList ++ args ++ tail')) = name.toList ++ args := by
    rw [List.append_assoc, hname.beforeComment_append (hparams.atBlank.append htail'.atBlank),
      hparams.beforeComment_append htail'.atBlank, ← List.append_assoc]
    exact htail'.isGap_beforeComment.trim_append hcore
  obtain ⟨is, rfl, hspells⟩ := hparams.exists_spells
  rw [LineContent.read_eq]
  · rw [String.toList_ofList, htrim, hkept,
      LineContent.ofKept_append hname.isBare.noBlank hparams.atBlank, items_iff.mpr hspells,
      String.ofList_toList]
  · rw [String.toList_ofList, htrim]
    simp [hname.ne_nil]
  · rw [String.toList_ofList, htrim]
    exact hhead

/-! ### The line in a script -/

/-- A command line among other lines becomes one command line of the script, under its own
number, whatever way it is written. It is never the line for which splitting fails, and so only
an open quote in another line keeps the script from being split. -/
theorem ofLines_of_writesLine {lines : List String} {index : Nat} {line name : String}
    {params : List String} (hline : lines[index]? = some line)
    (h : WritesLine name params line) :
    (∀ source, Source.ofLines lines = .ok source →
      source.lines.filter (fun c => c.number == index + 1) = [⟨index + 1, name, params⟩]) ∧
    (∀ u, Source.ofLines lines = .error u → u.number ≠ index + 1) ∧
    ((∃ source, Source.ofLines lines = .ok source) ↔
      ∀ number ≠ index + 1, ∀ other, ¬ IsOpenLine lines number other) := by
  have hread := read_of_writesLine h
  have hnotOpen : ∀ other, ¬ IsOpenLine lines (index + 1) other := by
    rintro other ⟨-, hopen⟩
    rw [Nat.add_sub_cancel, hline, Option.map_some, hread] at hopen
    cases hopen
  refine ⟨?_, ?_, ?_⟩
  · intro source hsource
    have hmem (c : SourceLine) : c ∈ source.lines.filter (fun c => c.number == index + 1) ↔
        c = ⟨index + 1, name, params⟩ := by
      rw [List.mem_filter, Source.mem_lines_iff hsource, beq_iff_eq]
      constructor
      · rintro ⟨⟨-, hc⟩, hnumber⟩
        rw [hnumber, Nat.add_sub_cancel, hline, Option.map_some, hread] at hc
        cases c
        simp_all
      · rintro rfl
        exact ⟨⟨Nat.succ_pos index, by rw [Nat.add_sub_cancel, hline, Option.map_some, hread]⟩, rfl⟩
    -- The numbers increase, so there is no second line with this number.
    have hsorted := (Source.pairwise_number_commandLines
      (Source.commandLines_of_ofLines hsource).1).filter (fun c => c.number == index + 1)
    generalize source.lines.filter _ = found at hmem hsorted
    match found with
    | [] => exact absurd ((hmem _).mpr rfl) List.not_mem_nil
    | [c] => rw [(hmem c).mp List.mem_cons_self]
    | c :: d :: _ =>
      have hc := (hmem c).mp List.mem_cons_self
      have hd := (hmem d).mp (List.mem_cons_of_mem c List.mem_cons_self)
      have hlt := List.rel_of_pairwise_cons hsorted List.mem_cons_self
      rw [hc, hd] at hlt
      exact absurd hlt (Nat.lt_irrefl _)
  · intro u hu hnumber
    exact hnotOpen u.name (hnumber ▸ (Source.ofLines_error_iff.mp hu).1)
  · constructor
    · rintro ⟨source, hsource⟩ number - other
      exact Source.not_isOpenLine_of_ofLines hsource number other
    · intro hothers
      refine Source.exists_ofLines ?_
      intro number other hopen
      by_cases heq : number = index + 1
      · exact hnotOpen other (heq ▸ hopen)
      · exact hothers number heq other hopen

/-- A line with a backslash at the end of its name and of a bare parameter, behind a line that
holds no command. Its second parameter holds a `#`, double quotes and a line feed. -/
theorem ofLines_of_writesLine_backslashes :
    ∃ source, Source.ofLines ["# start", "\tRun\\  C:\\dir\\ \"say \\\"#1\\\"\\n\" # done"] =
        .ok source ∧
      source.lines.filter (fun c => c.number == 2) =
        [⟨2, "Run\\", ["C:\\dir\\", "say \"#1\"\n"]⟩] := by
  have hquoted : WritesBody "say \"#1\"\n".toList "say \\\"#1\\\"\\n".toList :=
    .cons (.plain (by decide) (by decide)) <| .cons (.plain (by decide) (by decide)) <|
    .cons (.plain (by decide) (by decide)) <| .cons (.plain (by decide) (by decide)) <|
    .cons (.escaped (.inr rfl)) <| .cons (.plain (by decide) (by decide)) <|
    .cons (.plain (by decide) (by decide)) <| .cons (.escaped (.inr rfl)) <|
    .cons .lineFeed .nil
  have hparams : WritesParams ["C:\\dir\\", "say \"#1\"\n"]
      "  C:\\dir\\ \"say \\\"#1\\\"\\n\"".toList :=
    @WritesParams.cons _ _ [' ', ' '] _ _ (by decide) (by decide)
      (.bare (by decide)) <|
    @WritesParams.cons _ _ [' '] _ _ (by decide) (by decide) (.quoted hquoted) .nil
  have hline : WritesLine "Run\\" ["C:\\dir\\", "say \"#1\"\n"]
      "\tRun\\  C:\\dir\\ \"say \\\"#1\\\"\\n\" # done" :=
    @WritesLine.line _ _ ['\t'] _ _ (by decide) (by decide) hparams
      (.comment " done".toList (by decide : IsGap [' ']) (by decide))
  have hothers (line : String) :
      ∀ number ≠ 2, ∀ other, ¬ IsOpenLine ["# start", line] number other := by
    rintro number hnumber other ⟨hpos, hopen⟩
    match number with
    | 1 =>
      have hread : LineContent.read "# start" = .nothing := by decide +kernel
      simp [hread] at hopen
    | 2 => exact hnumber rfl
    | number + 3 => cases hopen
  have hlines := @ofLines_of_writesLine ["# start", _] 1 _ _ _ rfl hline
  obtain ⟨source, hsource⟩ := hlines.2.2.mpr (hothers _)
  exact ⟨source, hsource, hlines.1 source hsource⟩

end InputScript
