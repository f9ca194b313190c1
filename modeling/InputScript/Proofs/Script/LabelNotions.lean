import InputScript.Proofs.Catalog.Registration
import InputScript.Proofs.Script.Listing

/-!
# `InputScript.Proofs.Script.LabelNotions`: two notions of a label

The search for a target takes a line for a label by the word that is written on it. The label
table takes an instruction for a label by the name of the command that was made. A catalog may
make a command of one name under the word of another, and then the two differ.

* `findIdx?_eq_iff`: when two searches through corresponding lists stop at the same place.
* `labelsAgree_iff_findIdx?`: the table and the search agree on a name when they stop at the
  same place.
* `KeepsLabels.label?_of_compileLine`: catalogs under which the two notions are one.
* `keepsLabels_of_registerAll`: the built-in catalog is one, and other commands may be added.
* `labelsAgree_iff`: when they agree on a name, for every catalog and every script.
-/

set_option autoImplicit false

namespace InputScript

open Text

/-- The line of the first label of a name, as the search for a target finds it. -/
def Source.labelLine? (source : Source) (name : String) : Option Nat :=
  (source.lines.find? (Source.isLabelFor name)).map SourceLine.number

/-- The label table of a script and the search for a target agree on a name: the table has the
name just if the search finds a label for it, and the instruction in the table stands on the
line that is found. -/
structure LabelsAgree (source : Source) (script : Script) (name : String) : Prop where
  isSome : (script.labels.lookup name).isSome = (source.labelLine? name).isSome
  line : ∀ index number, script.labels.lookup name = some index →
    source.labelLine? name = some number →
    ∃ i, script.instructions[index]? = some i ∧ i.line = number

/-- A line that only the search or, by its instruction, only the table takes for a label of the
name comes behind a line that both take for one. -/
def SharedLabelFirst (source : Source) (script : Script) (name : String) : Prop :=
  ∀ (k : Nat) (c : SourceLine) (i : Instruction), source.lines[k]? = some c →
    script.instructions[k]? = some i → Source.isLabelFor name c ≠ (i.label? == some name) →
    ∃ j < k, ∃ d e, source.lines[j]? = some d ∧ script.instructions[j]? = some e ∧
      Source.isLabelFor name d = true ∧ e.label? = some name

/-! ### Searching corresponding lists -/

/-- Two searches through corresponding lists stop at the same place just if a pair that only
one of them would stop at comes behind a pair that both would. -/
theorem findIdx?_eq_iff {α β : Type} {R : α → β → Prop} {as : List α} {bs : List β}
    (hpairs : List.Forall₂ R as bs) (p : α → Bool) (q : β → Bool) :
    bs.findIdx? q = as.findIdx? p ↔ ∀ (k : Nat) (a : α) (b : β), as[k]? = some a →
      bs[k]? = some b → p a ≠ q b →
      ∃ j < k, ∃ c d, as[j]? = some c ∧ bs[j]? = some d ∧ p c = true ∧ q d = true := by
  induction hpairs with
  | nil => simp
  | @cons a b as bs hab hrest ih =>
    rw [List.findIdx?_cons, List.findIdx?_cons]
    cases hp : p a with
    | true =>
      cases hq : q b with
      | true =>
        -- Both stop at once, and every other pair comes behind this one.
        refine iff_of_true (by simp) ?_
        intro k c d hc hd hne
        cases k with
        | zero =>
          cases hc
          cases hd
          exact absurd (hp.trans hq.symm) hne
        | succ k => exact ⟨0, Nat.succ_pos k, a, b, rfl, rfl, hp, hq⟩
      | false =>
        refine iff_of_false ?_ ?_
        · cases bs.findIdx? q <;> simp
        · intro h
          obtain ⟨j, hj, -⟩ := h 0 a b rfl rfl (by rw [hp, hq]; decide)
          exact absurd hj (Nat.not_lt_zero j)
    | false =>
      cases hq : q b with
      | true =>
        refine iff_of_false ?_ ?_
        · cases as.findIdx? p <;> simp
        · intro h
          obtain ⟨j, hj, -⟩ := h 0 a b rfl rfl (by rw [hp, hq]; decide)
          exact absurd hj (Nat.not_lt_zero j)
      | false =>
        -- Neither stops here, so the rest decides.
        have hstep : (bs.findIdx? q).map (· + 1) = (as.findIdx? p).map (· + 1) ↔
            bs.findIdx? q = as.findIdx? p := by
          cases bs.findIdx? q <;> cases as.findIdx? p <;> simp
        simp only [Bool.false_eq_true, if_false]
        rw [hstep, ih]
        constructor
        · intro h k c d hc hd hne
          cases k with
          | zero =>
            cases hc
            cases hd
            exact absurd (hp.trans hq.symm) hne
          | succ k =>
            obtain ⟨j, hj, hshared⟩ := h k c d hc hd hne
            exact ⟨j + 1, by omega, hshared⟩
        · intro h k c d hc hd hne
          obtain ⟨j, hj, x, y, hx, hy, hpx, hqy⟩ := h (k + 1) c d hc hd hne
          cases j with
          | zero =>
            cases hx
            rw [hp] at hpx
            cases hpx
          | succ j => exact ⟨j, by omega, x, y, hx, hy, hpx, hqy⟩

section Search

variable {source : Source} {name : String}

/-- The search finds the line at which it stops. -/
theorem labelLine?_of_some {k : Nat}
    (hk : source.lines.findIdx? (Source.isLabelFor name) = some k) :
    ∃ c, source.lines[k]? = some c ∧ source.labelLine? name = some c.number := by
  obtain ⟨hlt, -, -⟩ := List.findIdx?_eq_some_iff_getElem.mp hk
  refine ⟨source.lines[k], List.getElem?_eq_getElem hlt, ?_⟩
  rw [Source.labelLine?, List.find?_eq_bind_findIdx?_getElem?, hk, Option.bind_some,
    List.getElem?_eq_getElem hlt, Option.map_some]

/-- It finds nothing where it does not stop. -/
theorem labelLine?_of_none (hk : source.lines.findIdx? (Source.isLabelFor name) = none) :
    source.labelLine? name = none := by
  rw [Source.labelLine?, List.find?_eq_bind_findIdx?_getElem?, hk, Option.bind_none,
    Option.map_none]

end Search

section Pairs

variable {catalog : Catalog} {lines : List String} {script : Script} {source : Source}
  (hsource : Source.ofLines lines = .ok source)
  (hpairs : List.Forall₂ (fun c i => catalog.compileLine source c = .ok i)
    source.lines script.instructions)

include hpairs

/-- The instruction of a command line stands on it. -/
theorem exists_instruction_of_getElem? {k : Nat} {c : SourceLine}
    (hc : source.lines[k]? = some c) :
    ∃ i, script.instructions[k]? = some i ∧ i.line = c.number := by
  obtain ⟨hk, rfl⟩ := List.getElem?_eq_some_iff.mp hc
  have hk' : k < script.instructions.length := hpairs.length_eq ▸ hk
  exact ⟨script.instructions[k], List.getElem?_eq_getElem hk',
    Catalog.line_of_compileLine (hpairs.get hk hk')⟩

include hsource

/-- The label table and the search for a target agree on a name when they stop at the same
place. -/
theorem labelsAgree_iff_findIdx? (name : String) :
    LabelsAgree source script name ↔
      script.instructions.findIdx? (fun i => i.label? == some name) =
        source.lines.findIdx? (Source.isLabelFor name) := by
  have hsorted := Catalog.pairwise_line_of_forall₂ hsource hpairs
  constructor
  · intro h
    have hisSome := h.isSome
    rw [Script.lookup_labels] at hisSome
    cases hk : source.lines.findIdx? (Source.isLabelFor name) with
    | none =>
      rw [labelLine?_of_none hk] at hisSome
      simpa using hisSome
    | some k =>
      obtain ⟨c, hc, hcline⟩ := labelLine?_of_some hk
      rw [hcline] at hisSome
      obtain ⟨index, hindex⟩ := Option.isSome_iff_exists.mp hisSome
      obtain ⟨i, hi, hiline⟩ :=
        h.line index c.number ((Script.lookup_labels script name).trans hindex) hcline
      -- Lines increase, so one line is one place.
      obtain ⟨j, hj, hjline⟩ := exists_instruction_of_getElem? hpairs hc
      rw [hindex, ← Script.indexForLine_line hsorted hi, hiline, ← hjline,
        Script.indexForLine_line hsorted hj]
  · intro heq
    cases hk : source.lines.findIdx? (Source.isLabelFor name) with
    | none =>
      have hlookup : script.labels.lookup name = none := by
        rw [Script.lookup_labels, heq, hk]
      refine ⟨by rw [hlookup, labelLine?_of_none hk], ?_⟩
      intro index number hindex
      rw [hlookup] at hindex
      cases hindex
    | some k =>
      obtain ⟨c, hc, hcline⟩ := labelLine?_of_some hk
      have hlookup : script.labels.lookup name = some k := by
        rw [Script.lookup_labels, heq, hk]
      refine ⟨by rw [hlookup, hcline]; rfl, ?_⟩
      intro index number hindex hnumber
      rw [hlookup] at hindex
      rw [hcline] at hnumber
      cases hindex
      cases hnumber
      exact exists_instruction_of_getElem? hpairs hc

end Pairs

/-! ### Catalogs under which the two notions are one -/

/-- An entry makes a command that is named `Label` just if it has that name itself, and such a
command keeps its first parameter. -/
structure Descriptor.KeepsLabels (d : Descriptor) : Prop where
  name_iff : d.kind.name = Source.labelName ↔ sameName d.name Source.labelName = true
  head?_params : ∀ scope p, d.kind.name = Source.labelName → d.kind.prepare scope = .ok p →
    p.params.head? = scope.params.head?

namespace Catalog

/-- All entries of a catalog treat labels in this way. -/
def KeepsLabels (catalog : Catalog) : Prop :=
  ∀ d ∈ catalog.entries, d.KeepsLabels

/-- Under such a catalog the instruction of a line defines a label exactly when the line is
that label. -/
theorem KeepsLabels.label?_of_compileLine {catalog : Catalog} (hkeeps : catalog.KeepsLabels)
    {source : Source} {c : SourceLine} {i : Instruction}
    (h : catalog.compileLine source c = .ok i) (name : String) :
    (i.label? == some name) = Source.isLabelFor name c := by
  obtain ⟨d, p, hd, -, hprepared, hi⟩ := compileLine_ok_iff.mp h
  have hkeep : d.KeepsLabels := hkeeps d (List.mem_of_find?_eq_some hd)
  have hword : sameName d.name c.name = true := sameName_of_find? hd
  have hname : i.name = d.kind.name := by
    rw [hi]
    exact CommandKind.name_of_prepare hprepared
  rw [Instruction.label?, Source.isLabelFor]
  by_cases hlabel : d.kind.name = Source.labelName
  · have hsame := sameName_trans (sameName_symm hword) (hkeep.name_iff.mp hlabel)
    rw [if_pos (hname.trans hlabel), hsame, Bool.true_and]
    have hhead : i.params.head? = c.params.head? := by
      rw [hi]
      exact hkeep.head?_params _ _ hlabel hprepared
    rw [hhead]
  · have hno : sameName c.name Source.labelName = false := by
      rw [Bool.eq_false_iff]
      exact fun hyes => hlabel (hkeep.name_iff.mpr (sameName_trans hword hyes))
    rw [if_neg (hname ▸ hlabel), hno]
    rfl

/-- No two built-in commands share a name, in whatever case it is written. -/
theorem namesApart_builtin : builtin.NamesApart := by
  have hnames : builtin.names.Pairwise fun a b => sameName a b = false := by decide +kernel
  exact List.pairwise_map.mp hnames

/-- The built-in commands treat labels in this way. -/
theorem keepsLabels_builtin : builtin.KeepsLabels := by
  intro d hd
  obtain ⟨b, hkind, hname, -⟩ := mem_builtin hd
  rw [show d = ⟨d.name, d.arity, d.usage, d.kind⟩ from rfl, hkind, hname]
  constructor
  · constructor
    · intro hlabel
      show sameName b.name Source.labelName = true
      rw [show b.name = Source.labelName from hlabel, sameName_refl]
    · intro hsame
      have hb : b = .label := Builtin.eq_of_sameName hsame
      rw [hb]
      rfl
  · intro scope p hlabel hprepared
    have hb : b = .label := Builtin.name_injective hlabel
    subst hb
    simp only [CommandKind.prepare, Builtin.prepare, Builtin.prepareLabel] at hprepared
    split at hprepared
    · cases hprepared
    · cases hprepared
      rfl

/-- So do these and others beside them, as long as none of the others makes a command that is
named `Label`. -/
theorem keepsLabels_of_registerAll {ds : List Descriptor} {catalog : Catalog}
    (h : builtin.registerAll ds = .ok catalog)
    (hnames : ∀ d ∈ ds, d.kind.name ≠ Source.labelName) : catalog.KeepsLabels := by
  have hentries := entries_of_registerAll h
  have hapart := namesApart_builtin.registerAll h
  intro d hd
  rw [hentries, List.mem_append] at hd
  rcases hd with hd | hd
  · exact keepsLabels_builtin d hd
  · -- The name is taken by the built-in label, and this entry makes another command.
    have hfree : ¬ sameName d.name Source.labelName = true := by
      intro hsame
      have hlabel : descriptor .label (.exactly 1) "Label <name>" ∈ builtin.entries := by
        simp [builtin]
      have heq := hapart.eq_of_sameName (by rw [hentries]; exact List.mem_append_right _ hd)
        (by rw [hentries]; exact List.mem_append_left _ hlabel) hsame
      exact hnames d hd (by rw [heq]; rfl)
    exact ⟨iff_of_false (hnames d hd) hfree, fun _ _ hlabel => absurd hlabel (hnames d hd)⟩

/-! ### All catalogs -/

/-- When the label table and the search for a target agree on a name. For every catalog and
every script that compiles with it, they agree just if a line that only one of them takes for
a label of this name comes behind a line that both do; a jump to a name of the table then leads
to the line of the instruction that the table has, from wherever it stands. They agree on all
names when the commands of the catalog that are named `Label` are those that are written so. -/
theorem labelsAgree_iff {catalog : Catalog} {lines : List String} {script : Script}
    (h : catalog.compile lines = .ok script) :
    ∃ source, Source.ofLines lines = .ok source ∧
      (∀ name, LabelsAgree source script name ↔ SharedLabelFirst source script name) ∧
      (∀ name index, LabelsAgree source script name →
        script.labels.lookup name = some index →
        ∃ i, script.instructions[index]? = some i ∧
          ∀ own, source.target? name own = some i.line) ∧
      (catalog.KeepsLabels → ∀ name, LabelsAgree source script name) := by
  obtain ⟨source, hsource, -, hpairs⟩ := source_of_compile h
  have hiff : ∀ name, LabelsAgree source script name ↔ SharedLabelFirst source script name := by
    intro name
    rw [labelsAgree_iff_findIdx? hsource hpairs, findIdx?_eq_iff hpairs]
    simp only [SharedLabelFirst, beq_iff_eq]
  refine ⟨source, hsource, hiff, ?_, ?_⟩
  · intro name index hagree hindex
    have hsome : (source.labelLine? name).isSome := by
      rw [← hagree.isSome, hindex, Option.isSome_some]
    obtain ⟨number, hnumber⟩ := Option.isSome_iff_exists.mp hsome
    obtain ⟨i, hi, hline⟩ := hagree.line index number hindex hnumber
    refine ⟨i, hi, ?_⟩
    intro own
    -- A label is preferred to a command of the same name.
    obtain ⟨c, hc, rfl⟩ := Option.map_eq_some_iff.mp hnumber
    rw [Source.target?, hc, Option.some_or, Option.map_some, hline]
  · intro hkeeps name
    rw [hiff]
    intro k c i hc hi hne
    obtain ⟨hk, rfl⟩ := List.getElem?_eq_some_iff.mp hc
    obtain ⟨hk', rfl⟩ := List.getElem?_eq_some_iff.mp hi
    exact absurd (hkeeps.label?_of_compileLine (hpairs.get hk hk') name).symm hne

/-- A command to fly beside the built-in ones, with a label behind it that has the parameter of
the flight. -/
theorem labelsAgree_iff_fly : ∃ extended script source,
    builtin.registerAll [⟨"Fly", .exactly 1, "Fly <where>",
      .custom "Fly" fun scope => .ok (scope.params, .done)⟩] = .ok extended ∧
    extended.compile ["Fly up", "label up", "Call up"] = .ok script ∧
    Source.ofLines ["Fly up", "label up", "Call up"] = .ok source ∧
    extended.KeepsLabels ∧ LabelsAgree source script "up" ∧
    SharedLabelFirst source script "up" ∧ script.labels.lookup "up" = some 1 ∧
    ∃ i, script.instructions[1]? = some i ∧ ∀ own, source.target? "up" own = some i.line := by
  have hregister : builtin.registerAll [⟨"Fly", .exactly 1, "Fly <where>",
      .custom "Fly" fun scope => .ok (scope.params, .done)⟩] =
      .ok ⟨builtin.entries ++ [_]⟩ := rfl
  have hcompile : (⟨builtin.entries ++ [⟨"Fly", .exactly 1, "Fly <where>",
      .custom "Fly" fun scope => .ok (scope.params, .done)⟩]⟩ : Catalog).compile
      ["Fly up", "label up", "Call up"] =
      .ok ⟨[⟨1, ["up"], .custom "Fly" .done⟩, ⟨2, ["up"], .label "up"⟩, ⟨3, ["2"], .call 2⟩],
        3⟩ := by
    with_unfolding_all rfl
  have hkeeps := keepsLabels_of_registerAll hregister (by decide)
  obtain ⟨source, hsource, hiff, hjump, hall⟩ := labelsAgree_iff hcompile
  have hlookup : (⟨[⟨1, ["up"], .custom "Fly" .done⟩, ⟨2, ["up"], .label "up"⟩,
      ⟨3, ["2"], .call 2⟩], 3⟩ : Script).labels.lookup "up" = some 1 := by decide +kernel
  exact ⟨_, _, source, hregister, hcompile, hsource, hkeeps, hall hkeeps "up",
    (hiff "up").mp (hall hkeeps "up"), hlookup, hjump "up" 1 (hall hkeeps "up") hlookup⟩

/-- A second word for the command that makes labels. The label table has the label that is
written with it, the search for a target does not find it, and a jump to it does not compile. -/
theorem label_by_other_word_not_found : ∃ extended script source,
    builtin.register ⟨"Mark", .exactly 1, "Mark <name>", .builtin .label⟩ = (.ok (), extended) ∧
    extended.compile ["Mark x"] = .ok script ∧ Source.ofLines ["Mark x"] = .ok source ∧
    script.labels.lookup "x" = some 0 ∧ source.labelLine? "x" = none ∧
    (∀ own, source.target? "x" own = none) ∧ ¬ LabelsAgree source script "x" ∧
    extended.compile ["Mark x", "Call x"] = .error (.unresolvedTarget "x" 2) := by
  have hlookup : (⟨[⟨1, ["x"], .label "x"⟩], 1⟩ : Script).labels.lookup "x" = some 0 := by
    decide +kernel
  have hline : (⟨[⟨1, "Mark", ["x"]⟩], 1⟩ : Source).labelLine? "x" = none := by decide +kernel
  refine ⟨⟨builtin.entries ++ [_]⟩, ⟨[⟨1, ["x"], .label "x"⟩], 1⟩, ⟨[⟨1, "Mark", ["x"]⟩], 1⟩,
    rfl, ?_, by decide +kernel, hlookup, hline, ?_, ?_, ?_⟩
  · with_unfolding_all rfl
  · intro own
    -- No command of the script is named `x` either.
    have hcommand : sameName "Mark" "x" = false := by decide
    have hlabel : Source.isLabelFor "x" ⟨1, "Mark", ["x"]⟩ = false := by decide
    simp [Source.target?, hcommand, hlabel]
  · intro hagree
    have hsome := hagree.isSome
    rw [hlookup, hline] at hsome
    cases hsome
  · with_unfolding_all rfl

end Catalog

end InputScript
