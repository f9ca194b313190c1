import InputScript.Proofs.Script.Listing
import InputScript.Proofs.Source.Spelling
import Mathlib.Algebra.Group.Nat.Even

/-!
# `InputScript.Proofs.Script.Commented`: a comment behind a line of a script

A comment at the end of a line should change nothing. It does not as long as the two readers
of a line agree on what is quoted. They disagree on a double quote in a bare parameter, such as
the quote key of a chord: for the reader of parameters it is a character like any other, while
the reader of comments takes it for a quote and finds no comment behind it until the next one.

`looseQuotes` counts these double quotes. The comment is passed over if there is an even number
of them. With an odd number the comment becomes further parameters of the command, which no
built-in command takes.

* `Spells.beforeComment_append`: the reader of comments over the parameters of a line.
* `read_withComment_of_even`, `Parts.read_of_odd`: what is read of a line with a comment.
* `not_compileLine_sharp`: no command takes a comment as one more parameter.
* `compile_withComment`: a script with the line, and with the line and a comment.
-/

set_option autoImplicit false

namespace InputScript

open Text

/-- The double quotes of parameters that only the reader of comments takes for quotes. -/
def Item.looseQuotes : List Item → Nat
  | [] => 0
  | .bare text :: is => quoteMarks text + looseQuotes is
  | .quoted _ :: is => looseQuotes is

/-- The double quotes of a line that only the reader of comments takes for quotes. -/
def looseQuotes (line : String) : Nat :=
  let cs := trim line.toList
  let args := cs.dropWhile fun c => !isBlank c
  quoteMarks (cs.takeWhile fun c => !isBlank c) + Item.looseQuotes ((items args).getD [])

/-- A line with a comment behind it. -/
def withComment (line text : String) : String :=
  line ++ " # " ++ text

/-! ### Quotes that open and close -/

/-- One number of double quotes after the other. -/
theorem openAfter_add (inQuotes : Bool) (m n : Nat) :
    openAfter inQuotes (m + n) = openAfter (openAfter inQuotes m) n := by
  induction m generalizing inQuotes with
  | zero => rw [Nat.zero_add, openAfter]
  | succ m ih => rw [Nat.succ_add, openAfter, openAfter, ih]

/-- Behind an even number of double quotes all is as before. -/
theorem openAfter_eq (inQuotes : Bool) (n : Nat) :
    openAfter inQuotes n = if Even n then inQuotes else !inQuotes := by
  induction n generalizing inQuotes with
  | zero => rfl
  | succ n ih =>
    rw [openAfter, ih, Bool.not_not]
    by_cases h : Even n <;> simp [Nat.even_add_one, h]

/-- Where no `#` is, nothing is cut off. -/
theorem beforeComment_eq_self {cs : List Char} (h : '#' ∉ cs) (inQuotes : Bool) :
    beforeComment inQuotes cs = cs := by
  fun_induction beforeComment inQuotes cs with
  | case1 => rfl
  | case2 => rfl
  | case3 inQuotes c r ih =>
    rw [ih fun hmem => h (List.mem_cons_of_mem _ (List.mem_cons_of_mem _ hmem))]
  | case4 inQuotes r ih => rw [ih fun hmem => h (List.mem_cons_of_mem _ hmem)]
  | case5 inQuotes c r _ _ _ hcut =>
    have hc : c = '#' := by simp_all
    exact absurd (hc ▸ List.mem_cons_self) h
  | case6 inQuotes c r _ _ _ _ ih => rw [ih fun hmem => h (List.mem_cons_of_mem _ hmem)]

/-- Over parameters without a `#` the reader of comments opens and closes a quotation for each
quoted one, and keeps count of the double quotes in the bare ones. -/
theorem Spells.beforeComment_append {cs r : List Char} {is : List Item} (h : Spells cs is)
    (hcomment : '#' ∉ cs) (hr : AtBlank r) (inQuotes : Bool) :
    beforeComment inQuotes (cs ++ r) =
      cs ++ beforeComment (openAfter inQuotes (Item.looseQuotes is)) r := by
  induction h generalizing inQuotes with
  | nil => rfl
  | @blank c cs is hblank _ ih =>
    have hgap : IsGap [c] := by simpa [IsGap] using hblank
    have hrest := beforeComment_gap hgap inQuotes (cs ++ r)
    rw [List.singleton_append, List.singleton_append,
      ih fun hmem => hcomment (List.mem_cons_of_mem _ hmem)] at hrest
    exact hrest
  | @quoted body cs is hbody _ ih =>
    have hbodyComment : '#' ∉ body := fun hmem => hcomment (by simp [hmem])
    rw [List.cons_append, List.append_assoc, List.cons_append,
      beforeComment_quoted hbody (.inl hbodyComment), ih fun hmem => hcomment (by simp [hmem])]
    simp [Item.looseQuotes]
  | @bare text cs is hbare hcs _ ih =>
    rw [List.append_assoc, beforeComment_word (fun hmem => hcomment (by simp [hmem]))
      (hcs.append hr), ih fun hmem => hcomment (by simp [hmem]), ← openAfter_add]
    simp [Item.looseQuotes]

/-! ### Further parameters -/

/-- The items of a text come before those of what stands behind it. -/
theorem Spells.items_append {cs r : List Char} {is : List Item} (h : Spells cs is)
    (hr : AtBlank r) : items (cs ++ r) = (items r).map (is ++ ·) := by
  induction h with
  | nil =>
    rw [List.nil_append]
    cases items r <;> rfl
  | blank hblank _ ih => rw [List.cons_append, items_blank hblank, ih]
  | quoted hbody _ ih =>
    rw [List.cons_append, List.append_assoc, List.cons_append, items_quoted hbody, ih,
      Option.map_map]
    rfl
  | bare hbare hcs _ ih =>
    rw [List.append_assoc, items_bare hbare (hcs.append hr), ih, Option.map_map]
    rfl

/-! ### A line with a comment -/

/-- A line with a command and no comment, taken apart into the name and the parameters. -/
structure Parts (line : String) (word args : List Char) (is : List Item) : Prop where
  trim_eq : trim line.toList = word ++ args
  ne_nil : word ++ args ≠ []
  noComment : '#' ∉ word ++ args
  noBlank : ∀ c ∈ word, isBlank c = false
  atBlank : AtBlank args
  spells : Spells args is

/-- A line without a comment is blank, or it can be taken apart unless a quote is open. -/
theorem exists_parts {line : String} (hcomment : '#' ∉ line.toList)
    (hread : ∀ name, LineContent.read line ≠ .unclosed name) :
    trim line.toList = [] ∨ ∃ word args is, Parts line word args is := by
  by_cases hne : trim line.toList = []
  · exact .inl hne
  right
  obtain ⟨before, after, -, -, hline⟩ := exists_trim_eq line.toList
  have htrimmed : '#' ∉ trim line.toList := by
    intro hmem
    rw [hline] at hcomment
    exact hcomment (by simp [hmem])
  have hhead : (trim line.toList).head? ≠ some '#' := fun hc =>
    htrimmed (List.mem_of_mem_head? hc)
  have hsplit := List.takeWhile_append_dropWhile (p := fun c => !isBlank c) (l := trim line.toList)
  have hblank : ∀ c ∈ (trim line.toList).takeWhile fun c => !isBlank c, isBlank c = false := by
    intro c hc
    simpa using List.all_eq_true.mp List.all_takeWhile c hc
  cases hitems : items ((trim line.toList).dropWhile fun c => !isBlank c) with
  | none =>
    rw [LineContent.read_eq hne hhead, beforeComment_eq_self htrimmed,
      (trimmed_trim line.toList).trim_eq, ← hsplit,
      LineContent.ofKept_append hblank (atBlank_dropWhile _), hitems] at hread
    exact absurd rfl (hread _)
  | some is =>
    exact ⟨_, _, is, hsplit.symm, hsplit.symm ▸ hne, hsplit.symm ▸ htrimmed, hblank,
      atBlank_dropWhile _, items_iff.mp hitems⟩

section Line

variable {line : String} {word args : List Char} {is : List Item} (h : Parts line word args is)

include h

/-- What is read of a line that is taken apart. -/
theorem Parts.read_eq :
    LineContent.read line = .command (String.ofList word) (is.map Item.value) := by
  have hkept : trim (word ++ args) = word ++ args := by
    rw [← h.trim_eq]
    exact (trimmed_trim line.toList).trim_eq
  rw [LineContent.read_eq, h.trim_eq, beforeComment_eq_self h.noComment, hkept,
    LineContent.ofKept_append h.noBlank h.atBlank, items_iff.mpr h.spells]
  · rw [h.trim_eq]
    exact h.ne_nil
  · rw [h.trim_eq]
    exact fun hc => h.noComment (List.mem_of_mem_head? hc)

theorem Parts.looseQuotes_eq :
    looseQuotes line = quoteMarks word + Item.looseQuotes is := by
  rw [looseQuotes, h.trim_eq, takeWhile_word h.noBlank h.atBlank,
    dropWhile_word h.noBlank h.atBlank, items_iff.mpr h.spells, Option.getD_some]

/-- Trimmed, the line with a comment is the line, a gap and the comment. -/
theorem Parts.exists_trim_withComment (text : String) :
    ∃ gap comment, IsGap gap ∧ gap ≠ [] ∧
      trim (withComment line text).toList = word ++ args ++ (gap ++ '#' :: comment) := by
  obtain ⟨before, after, hbefore, hafter, hline⟩ := exists_trim_eq line.toList
  rw [h.trim_eq] at hline
  have hcore : Trimmed (word ++ args) := h.trim_eq ▸ trimmed_trim line.toList
  have hgap : IsGap (after ++ [' ']) := by
    intro c hc
    rcases List.mem_append.mp hc with hc | hc
    · exact hafter c hc
    · rw [List.mem_singleton.mp hc]
      decide
  have hsplit : (withComment line text).toList =
      before ++ (word ++ args ++ (after ++ [' '] ++ '#' :: ' ' :: text.toList)) := by
    rw [withComment, String.toList_append, String.toList_append, hline]
    simp
  refine ⟨after ++ [' '], trimEnd (' ' :: text.toList), hgap, by simp, ?_⟩
  rw [hsplit, hcore.trim_append_cons h.ne_nil hbefore (by decide)]

/-- What the reader of comments leaves of the line with a comment depends on the number of
loose quotes. -/
theorem Parts.beforeComment_withComment {gap : List Char} (hgap : IsGap gap) (hne : gap ≠ [])
    (comment : List Char) :
    beforeComment false (word ++ args ++ (gap ++ '#' :: comment)) =
      word ++ args ++
        (gap ++ beforeComment (openAfter false (looseQuotes line)) ('#' :: comment)) := by
  have hwordComment : '#' ∉ word := fun hmem => h.noComment (List.mem_append_left args hmem)
  have hargsComment : '#' ∉ args := fun hmem => h.noComment (List.mem_append_right word hmem)
  have htail : AtBlank (gap ++ '#' :: comment) := hgap.atBlank_append hne _
  rw [List.append_assoc, beforeComment_word hwordComment (h.atBlank.append htail),
    h.spells.beforeComment_append hargsComment htail, ← openAfter_add, ← h.looseQuotes_eq,
    beforeComment_gap hgap, List.append_assoc]

/-- What is read of the line with a comment. -/
theorem Parts.read_withComment {text : String} {gap comment : List Char}
    (htrim : trim (withComment line text).toList = word ++ args ++ (gap ++ '#' :: comment)) :
    LineContent.read (withComment line text) =
      .ofKept (trim (beforeComment false (word ++ args ++ (gap ++ '#' :: comment)))) := by
  have hhead : (word ++ args ++ (gap ++ '#' :: comment)).head? ≠ some '#' := by
    intro hc
    rw [List.head?_append_of_ne_nil _ h.ne_nil] at hc
    exact h.noComment (List.mem_of_mem_head? hc)
  rw [LineContent.read_eq, htrim]
  · simp [htrim]
  · rw [htrim]
    exact hhead

/-- With an even number of loose quotes the comment is passed over. -/
theorem Parts.read_of_even (heven : Even (looseQuotes line)) (text : String) :
    LineContent.read (withComment line text) = LineContent.read line := by
  obtain ⟨gap, comment, hgap, hne, htrim⟩ := h.exists_trim_withComment text
  have hcore : Trimmed (word ++ args) := h.trim_eq ▸ trimmed_trim line.toList
  rw [h.read_withComment htrim, h.beforeComment_withComment hgap hne, openAfter_eq, if_pos heven,
    beforeComment_sharp, List.append_nil, hgap.trim_append hcore, h.read_eq,
    LineContent.ofKept_append h.noBlank h.atBlank, items_iff.mpr h.spells]

/-- With an odd number the comment becomes further parameters, unless a quote is open then. -/
theorem Parts.read_of_odd (hodd : ¬ Even (looseQuotes line)) (text : String) :
    LineContent.read (withComment line text) = .unclosed (String.ofList word) ∨
      ∃ comment more, LineContent.read (withComment line text) =
        .command (String.ofList word)
          (is.map Item.value ++ String.ofList ('#' :: comment) :: more) := by
  obtain ⟨gap, comment, hgap, hne, htrim⟩ := h.exists_trim_withComment text
  have hkeep : beforeComment true ('#' :: comment) = '#' :: beforeComment true comment :=
    beforeComment_cons (by decide) (by decide) (.inr rfl) comment
  have hcore : Trimmed (word ++ args) := h.trim_eq ▸ trimmed_trim line.toList
  have htail (cs : List Char) : AtBlank (gap ++ '#' :: cs) := hgap.atBlank_append hne _
  have hlast : trim (word ++ args ++ (gap ++ '#' :: beforeComment true comment)) =
      word ++ args ++ (gap ++ '#' :: trimEnd (beforeComment true comment)) :=
    hcore.trim_append_cons h.ne_nil (by decide : IsGap []) (by decide) gap _
  rw [h.read_withComment htrim, h.beforeComment_withComment hgap hne, openAfter_eq, if_neg hodd,
    Bool.not_false, hkeep, hlast, List.append_assoc,
    LineContent.ofKept_append h.noBlank (h.atBlank.append (htail _)),
    h.spells.items_append (htail _), items_gap hgap]
  -- The `#` is neither a blank nor a quote, so a bare parameter begins with it.
  rw [items, if_neg (by decide), if_neg (by decide)]
  cases items _ with
  | none => exact .inl rfl
  | some js =>
    right
    refine ⟨(trimEnd (beforeComment true comment)).takeWhile fun c => !isBlank c,
      js.map Item.value, ?_⟩
    simp [Item.value]

end Line

/-- With an even number of loose quotes a comment behind a line changes nothing. -/
theorem read_withComment_of_even {line : String} (hcomment : '#' ∉ line.toList)
    (hread : ∀ name, LineContent.read line ≠ .unclosed name) (heven : Even (looseQuotes line))
    (text : String) : LineContent.read (withComment line text) = LineContent.read line := by
  rcases exists_parts hcomment hread with hblank | ⟨word, args, is, h⟩
  · -- Behind a blank line the comment is the whole line.
    obtain ⟨before, after, hbefore, hafter, hline⟩ := exists_trim_eq line.toList
    have hgap : IsGap (line.toList ++ [' ']) := by
      rw [hline, hblank]
      intro c hc
      simp only [List.append_nil, List.mem_append, List.mem_singleton] at hc
      rcases hc with (hc | hc) | rfl
      · exact hbefore c hc
      · exact hafter c hc
      · decide
    have htrim : trim (withComment line text).toList = '#' :: trimEnd (' ' :: text.toList) := by
      have hsplit : (withComment line text).toList =
          line.toList ++ [' '] ++ ([] ++ '#' :: ' ' :: text.toList) := by
        simp [withComment]
      rw [hsplit, trim, hgap.trimStart_append]
      exact trimEnd_append_cons (by decide) [] _
    rw [LineContent.read, LineContent.read, htrim, hblank]
    simp
  · exact h.read_of_even heven text

/-! ### A script with a commented line -/

/-- Only what its lines hold decides how a script is split. -/
theorem Source.commandLines_congr {lines lines' : List String}
    (h : lines'.map LineContent.read = lines.map LineContent.read) (number : Nat) :
    commandLines number lines' = commandLines number lines := by
  induction lines generalizing lines' number with
  | nil => rw [List.map_eq_nil_iff.mp h]
  | cons line rest ih =>
    obtain ⟨line', rest', rfl, hread, hrest⟩ := List.map_eq_cons_iff.mp h
    rw [commandLines, commandLines, hread, ih hrest]

/-- Nor does anything else decide what a script compiles to. -/
theorem Catalog.compile_congr_read {lines lines' : List String}
    (h : lines'.map LineContent.read = lines.map LineContent.read) (catalog : Catalog) :
    catalog.compile lines' = catalog.compile lines := by
  have hlength : lines'.length = lines.length := by simpa using congrArg List.length h
  rw [compile, compile, Source.ofLines, Source.ofLines, Source.commandLines_congr h, hlength]

/-! ### A comment that is taken for a parameter -/

section Sharp

open Number

theorem natural?_sharp (cs : List Char) : natural? ('#' :: cs) = none := by
  have hdigit : isDigit '#' = false := by decide
  simp [natural?, hdigit]

theorem natural64?_sharp (cs : List Char) : natural64? (String.ofList ('#' :: cs)) = none := by
  simp [unsigned?, natural?_sharp]

theorem decimal_sharp (cs : List Char) : Decimal.parse? ('#' :: cs) = none := by
  have hdigit : isDigit '#' = false := by decide
  simp [Decimal.parse?, Decimal.sign, Decimal.fraction, hdigit]

theorem trim_sharp (cs : List Char) : trim ('#' :: cs) = '#' :: trimEnd cs :=
  trimEnd_append_cons (by decide) [] cs

/-- No span begins with a `#`. -/
theorem Span.parse_sharp (cs : List Char) :
    ∃ e, Span.parse (String.ofList ('#' :: cs)) = .error e := by
  rw [Span.parse, String.toList_ofList, trim_sharp, natural64?_sharp]
  dsimp only
  -- Before a unit the number begins with the same `#`.
  have hfirst (unit : List Char) {r : List Char} (hunit : ∀ c ∈ unit, c ≠ '#')
      (hr : ('#' :: trimEnd cs).reverse = unit.reverse ++ r) :
      ∃ ds, r.reverse = '#' :: ds := by
    have hsplit : '#' :: trimEnd cs = r.reverse ++ unit := by
      rw [← List.reverse_reverse ('#' :: trimEnd cs), hr]
      simp
    cases hrev : r.reverse with
    | nil =>
      rw [hrev, List.nil_append] at hsplit
      exact absurd rfl (hunit '#' (hsplit ▸ List.mem_cons_self))
    | cons c ds =>
      rw [hrev] at hsplit
      obtain ⟨rfl, -⟩ := List.cons.inj hsplit
      exact ⟨ds, rfl⟩
  split
  · rename_i r hr
    obtain ⟨ds, hds⟩ := hfirst ['m', 's'] (by simp) hr
    rw [hds, trim_sharp, natural64?_sharp]
    exact ⟨_, rfl⟩
  · rename_i r _ hr
    obtain ⟨ds, hds⟩ := hfirst ['s'] (by simp) hr
    rw [hds, trim_sharp, decimal_sharp]
    exact ⟨_, rfl⟩
  · exact ⟨_, rfl⟩

/-- A `#` stands in no second parameter of a command that also takes one parameter only. -/
theorem Builtin.not_prepare_sharp {b : Builtin} (hb : b = .wait ∨ b = .typeText) {scope : Scope}
    {first : String} {cs : List Char} {more : List String}
    (hparams : scope.params = first :: String.ofList ('#' :: cs) :: more) (p : Prepared) :
    b.prepare scope ≠ .ok p := by
  obtain ⟨e, he⟩ := Span.parse_sharp cs
  have hspan (absent : Span) : scope.spanD 1 absent = .error (.invalid (.span e)) := by
    have hsecond : scope.param? 1 = some (String.ofList ('#' :: cs)) := by
      rw [Scope.param?, hparams]
      rfl
    rw [Scope.spanD, hsecond]
    dsimp only
    rw [Scope.span, he]
  intro h
  rcases hb with rfl | rfl
  · simp only [prepare, prepareWait, hspan, bind, Except.bind] at h
    split at h <;> cases h
  · simp only [prepare, prepareTypeText, hspan, bind, Except.bind] at h
    cases h

end Sharp

namespace Catalog

/-- Apart from two commands, a built-in command that takes some parameters takes no more. -/
theorem accepts_builtin {d : Descriptor} (h : d ∈ builtin.entries) {m n : Nat} (hm : 0 < m)
    (hmn : m < n) (haccepts : d.arity.accepts m = true) (haccepts' : d.arity.accepts n = true) :
    m = 1 ∧ (d.kind = .builtin .wait ∨ d.kind = .builtin .typeText) := by
  rw [Arity.accepts_iff] at haccepts haccepts'
  simp only [builtin, List.mem_cons, List.not_mem_nil, or_false] at h
  rcases h with rfl | rfl | rfl | rfl | rfl | rfl | rfl | rfl | rfl | rfl | rfl | rfl | rfl
  all_goals
    simp only [descriptor, Arity.exactly] at haccepts haccepts'
    first
    | omega
    | exact ⟨by omega, by simp [descriptor]⟩

/-- A line that compiles no longer does with a `#` as one more parameter. -/
theorem not_compileLine_sharp {source source' : Source} {c c' : SourceLine} {i i' : Instruction}
    {cs : List Char} {more : List String} (h : builtin.compileLine source c = .ok i)
    (hname : c'.name = c.name) (hne : c.params ≠ [])
    (hparams : c'.params = c.params ++ String.ofList ('#' :: cs) :: more) :
    builtin.compileLine source' c' ≠ .ok i' := by
  intro h'
  obtain ⟨d, p, hd, hcount, hprepare, -⟩ := compileLine_ok_iff.mp h
  obtain ⟨d', p', hd', hcount', hprepare', -⟩ := compileLine_ok_iff.mp h'
  rw [hname, hd] at hd'
  cases hd'
  have hlength : c.params.length < c'.params.length := by simp [hparams]
  obtain ⟨hone, hkind⟩ := accepts_builtin (List.mem_of_find?_eq_some hd)
    (List.length_pos_of_ne_nil hne) hlength hcount hcount'
  obtain ⟨first, hfirst⟩ := List.length_eq_one_iff.mp hone
  rw [hfirst] at hparams
  rcases hkind with hkind | hkind
  · rw [hkind] at hprepare'
    exact Builtin.not_prepare_sharp (.inl rfl) hparams p' hprepare'
  · rw [hkind] at hprepare'
    exact Builtin.not_prepare_sharp (.inr rfl) hparams p' hprepare'

/-- The name on a line that compiles holds no double quote. -/
theorem notMem_quote_of_compileLine {source : Source} {c : SourceLine} {i : Instruction}
    (h : builtin.compileLine source c = .ok i) : '"' ∉ c.name.toList := by
  obtain ⟨b, hsame, -, -⟩ := builtin_of_compileLine h
  intro hmem
  have hlower : '"' ∈ lower b.name.toList := by
    rw [sameName_iff.mp hsame]
    exact List.mem_map.mpr ⟨'"', hmem, rfl⟩
  revert hlower
  cases b <;> decide

/-- A comment behind a line of a script that compiles is passed over if the number of loose
quotes in the line is even. With an odd number the script does not compile. -/
theorem compile_withComment {before after : List String} {line : String} {script : Script}
    (h : builtin.compile (before ++ line :: after) = .ok script)
    (hcomment : '#' ∉ line.toList) (text : String) :
    (Even (looseQuotes line) →
      builtin.compile (before ++ withComment line text :: after) = .ok script) ∧
    (¬ Even (looseQuotes line) →
      ∃ e, builtin.compile (before ++ withComment line text :: after) = .error e) := by
  obtain ⟨source, hsource, -, hpairs⟩ := source_of_compile h
  have hread : ∀ name, LineContent.read line ≠ .unclosed name :=
    Source.read_ne_unclosed (Source.commandLines_of_ofLines hsource).1 line (by simp)
  constructor
  · intro heven
    have hsame := read_withComment_of_even hcomment hread heven text
    have hreads : (before ++ withComment line text :: after).map LineContent.read =
        (before ++ line :: after).map LineContent.read := by
      simp [hsame]
    rw [compile_congr_read hreads, h]
  · intro hodd
    rcases exists_parts hcomment hread with hblank | ⟨word, args, is, hparts⟩
    · have hnone : looseQuotes line = 0 := by
        simp [looseQuotes, hblank, items, quoteMarks, Item.looseQuotes]
      exact absurd ⟨0, hnone⟩ hodd
    -- The line compiles without the comment.
    obtain ⟨i, -, hi⟩ := exists_of_forall₂ hpairs ((Source.mem_lines_iff hsource
      ⟨before.length + 1, String.ofList word, is.map Item.value⟩).mpr
        ⟨Nat.succ_pos _, by simp [hparts.read_eq]⟩)
    have hword : '"' ∉ word := by simpa using notMem_quote_of_compileLine hi
    have hne : is.map Item.value ≠ [] := by
      intro hnil
      rw [hparts.looseQuotes_eq, quoteMarks_eq_zero hword, List.map_eq_nil_iff.mp hnil] at hodd
      exact hodd ⟨0, rfl⟩
    cases hother : builtin.compile (before ++ withComment line text :: after) with
    | error e => exact ⟨e, rfl⟩
    | ok other =>
      obtain ⟨source', hsource', -, hpairs'⟩ := source_of_compile hother
      rcases hparts.read_of_odd hodd text with hopen | ⟨comment, more, hnew⟩
      · have hlegible := Source.read_ne_unclosed (Source.commandLines_of_ofLines hsource').1
        exact absurd hopen (hlegible _ (by simp) _)
      · obtain ⟨j, -, hj⟩ := exists_of_forall₂ hpairs' ((Source.mem_lines_iff hsource'
          ⟨before.length + 1, String.ofList word,
            is.map Item.value ++ String.ofList ('#' :: comment) :: more⟩).mpr
            ⟨Nat.succ_pos _, by simp [hnew]⟩)
        exact absurd hj (not_compileLine_sharp hi rfl hne rfl)

/-- Two double quotes in a bare parameter: the comment is passed over, although there is another
one in it. -/
theorem compile_withComment_two_quotes : ∃ script,
    builtin.compile ["Wait 5", "KeyPressText a\"b\" 5ms"] = .ok script ∧
      '#' ∉ "KeyPressText a\"b\" 5ms".toList ∧ Even (looseQuotes "KeyPressText a\"b\" 5ms") ∧
      builtin.compile ["Wait 5", withComment "KeyPressText a\"b\" 5ms" "say \""] = .ok script := by
  have hcompile : builtin.compile ["Wait 5", "KeyPressText a\"b\" 5ms"] =
      .ok ⟨[⟨1, ["5"], .wait ⟨5000000⟩ ⟨5000000⟩⟩,
        ⟨2, ["a\"b\"", "5ms"], .typeText "a\"b\"" ⟨5000000⟩⟩], 2⟩ := by
    with_unfolding_all rfl
  have hcomment : '#' ∉ "KeyPressText a\"b\" 5ms".toList := by decide
  have heven : Even (looseQuotes "KeyPressText a\"b\" 5ms") := by
    have htwo : looseQuotes "KeyPressText a\"b\" 5ms" = 2 := by decide +kernel
    rw [htwo]
    decide
  have hboth := @compile_withComment ["Wait 5"] [] _ _ hcompile hcomment "say \""
  exact ⟨_, hcompile, hcomment, heven, hboth.1 heven⟩

/-- A comment is not always passed over. Behind a chord with the quote key it becomes two more
parameters. -/
theorem quote_key_keeps_comment :
    builtin.compile ["KeyPress Ctrl+\" # c"] =
        .error (.invalidParameters "KeyPress" 1 (.count (.exactly 1) 3)) ∧
      ¬ ∀ (lines : List String) (index : Nat) (line text : String) (script : Script),
        builtin.compile lines = .ok script → lines[index]? = some line → '#' ∉ line.toList →
          ∃ other, builtin.compile (lines.set index (line ++ " # " ++ text)) = .ok other := by
  have hcompile : ∃ script, builtin.compile ["KeyPress Ctrl+\""] = .ok script := by
    exact ⟨_, by with_unfolding_all rfl⟩
  have herror : builtin.compile ["KeyPress Ctrl+\" # c"] =
      .error (.invalidParameters "KeyPress" 1 (.count (.exactly 1) 3)) := by
    with_unfolding_all rfl
  refine ⟨herror, ?_⟩
  intro halways
  obtain ⟨script, hscript⟩ := hcompile
  obtain ⟨other, hother⟩ := halways _ 0 _ "c" _ hscript rfl (by decide)
  have hline : "KeyPress Ctrl+\"" ++ " # " ++ "c" = "KeyPress Ctrl+\" # c" := by decide
  rw [List.set_cons_zero, hline, herror] at hother
  cases hother

end Catalog

end InputScript
