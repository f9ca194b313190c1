import InputScript.Proofs.Script.Inserted

/-!
# `InputScript.Proofs.Script.Edited`: the parameters of one line are edited

Every command is prepared against the whole text, so an edit of one line might be felt on any
other. It is not, unless the line is a label. All that a command reads of other lines is the
answer to a search for a jump target, and the search looks at names everywhere but at parameters
of labels only.

The edit is followed through the compiler. At each stage the result for the edited text is either
in step with the old one, or an error that the edited line is to blame for.

* `Source.commandLines_edit`: splitting the edited text.
* `Source.target?_edited`: searching for a target in it.
* `Builtin.prepare_congr`: a built-in command reads the text through that search alone.
* `Catalog.compileLine_edited`, `Catalog.compileLines_edited`: compiling its command lines.
* `compile_edited_params`: the whole statement.
-/

set_option autoImplicit false

namespace InputScript

open Text

/-- The name of the command on a line, also of one whose parameters have an open quote. -/
def LineContent.keyword? : LineContent → Option String
  | .nothing => none
  | .command name _ => some name
  | .unclosed name => some name

/-- Two lines with the same command, which is not a label. They may differ in the rest. -/
structure EditsParams (keyword old new : String) : Prop where
  old : (LineContent.read old).keyword? = some keyword
  new : (LineContent.read new).keyword? = some keyword
  notLabel : sameName keyword Source.labelName = false

/-! ### What becomes of lines, instructions and scripts -/

/-- What becomes of a command line when the parameters on line `k` are edited. -/
inductive SourceLine.Edited (k : Nat) : SourceLine → SourceLine → Prop
  | kept (c : SourceLine) : Edited k c c
  | edited {name : String} (before after : List String)
      (notLabel : sameName name Source.labelName = false) :
      Edited k ⟨k, name, before⟩ ⟨k, name, after⟩

/-- What becomes of an instruction when the parameters on line `k` are edited. -/
structure Instruction.Edited (k : Nat) (i j : Instruction) : Prop where
  line : j.line = i.line
  name : j.name = i.name
  /-- It defines the same label, or none as before. -/
  label? : j.label? = i.label?
  /-- The instructions of the other lines are the same, with their parameters and with what was
  prepared from these. -/
  same : i.line ≠ k → j = i

/-- What becomes of a script when the parameters on line `k` of its text are edited. -/
structure Script.Edited (k : Nat) (s t : Script) : Prop where
  /-- There are the same instructions in the same order, up to the one on line `k`. -/
  instructions : List.Forall₂ (Instruction.Edited k) s.instructions t.instructions
  length : t.length = s.length
  lineCount : t.lineCount = s.lineCount
  labels : t.labels = s.labels
  indexForLine : ∀ line, t.indexForLine line = s.indexForLine line

/-- What holds of a result: `R` of its value, or `B` of its error. -/
def OkOr {ε α : Type} (R : α → Prop) (B : ε → Prop) : Except ε α → Prop
  | .ok a => R a
  | .error e => B e

/-- An instruction that did not change. -/
theorem Instruction.Edited.refl (k : Nat) (i : Instruction) : i.Edited k i :=
  ⟨rfl, rfl, rfl, fun _ => rfl⟩

/-- A script is edited when its instructions are, one by one. -/
theorem Script.Edited.of_instructions {k : Nat} {s t : Script}
    (h : List.Forall₂ (Instruction.Edited k) s.instructions t.instructions)
    (hcount : t.lineCount = s.lineCount) : s.Edited k t where
  instructions := h
  length := h.length_eq.symm
  lineCount := hcount
  labels := addLabels_congr (h.imp fun _ _ hij => hij.label?) 0 []
  indexForLine := length_takeWhile_renumbered (fun _ _ => Iff.rfl) (h.imp fun _ _ hij => hij.line)

namespace Source

variable {keyword old new : String} {k : Nat}

/-! ### Splitting the edited text -/

/-- The edited text is split into the old command lines with other parameters on the edited line,
unless the edit leaves a quote open there. -/
theorem commandLines_edit (hedit : EditsParams keyword old new) (after before : List String)
    {number : Nat} {cs : List SourceLine}
    (h : commandLines number (before ++ old :: after) = .ok cs) :
    OkOr (List.Forall₂ (SourceLine.Edited (number + before.length)) cs)
      (fun u => u.number = number + before.length)
      (commandLines number (before ++ new :: after)) := by
  induction before generalizing number cs with
  | nil =>
    have hold := hedit.old
    have hnew := hedit.new
    rw [List.nil_append, commandLines] at h ⊢
    split at h
    · rename_i hread
      rw [hread] at hold
      cases hold
    · cases h
    · rename_i name params hread
      rw [hread] at hold
      cases hold
      split at h
      · cases h
      · rename_i rest hrest
        cases h
        split
        · rename_i hread'
          rw [hread'] at hnew
          cases hnew
        · -- The edit has opened a quote.
          rfl
        · rename_i name' params' hread'
          rw [hread'] at hnew
          cases hnew
          exact .cons (.edited _ _ hedit.notLabel)
            (List.forall₂_same.mpr fun c _ => .kept c)
  | cons text before ih =>
    have hk : number + (text :: before).length = number + 1 + before.length := by
      rw [List.length_cons]
      omega
    rw [hk]
    rw [List.cons_append, commandLines] at h ⊢
    split at h
    · exact ih h
    · cases h
    · rename_i name params hread
      split at h
      · cases h
      · rename_i rest hrest
        cases h
        have hrest' := ih hrest
        generalize commandLines (number + 1) (before ++ new :: after) = x at hrest'
        cases x with
        | error u => exact hrest'
        | ok ds => exact .cons (.kept _) hrest'

/-! ### Searching for a target in it -/

/-- A search that cannot tell corresponding lines apart stops at the same number. -/
theorem map_number_find? {cs ds : List SourceLine} (h : List.Forall₂ (SourceLine.Edited k) cs ds)
    {p : SourceLine → Bool} (hp : ∀ c d, SourceLine.Edited k c d → p d = p c) :
    (ds.find? p).map SourceLine.number = (cs.find? p).map SourceLine.number := by
  induction h with
  | nil => rfl
  | @cons c d cs ds hcd _ ih =>
    rw [List.find?_cons, List.find?_cons, hp c d hcd]
    split
    · cases hcd <;> rfl
    · exact ih

/-- The search for a target finds the same line as before. The edited line is no label, so nobody
asks for its parameters, and its name is the old one. -/
theorem target?_edited {source source' : Source}
    (h : List.Forall₂ (SourceLine.Edited k) source.lines source'.lines) (name : String)
    (own : Nat) : source'.target? name own = source.target? name own := by
  have hlabel : ∀ c d, SourceLine.Edited k c d → isLabelFor name d = isLabelFor name c := by
    intro c d hcd
    cases hcd with
    | kept => rfl
    | edited before after notLabel => simp only [isLabelFor, notLabel, Bool.false_and]
  have hcommand : ∀ c d, SourceLine.Edited k c d →
      (d.number != own && sameName d.name name) = (c.number != own && sameName c.name name) := by
    intro c d hcd
    cases hcd <;> rfl
  simp only [target?, Option.map_or, map_number_find? h hlabel, map_number_find? h hcommand]

end Source

/-! ### Compiling the edited text -/

/-- A built-in command reads the text through searches for targets alone. -/
theorem Builtin.prepare_congr {source source' : Source} {line : Nat}
    (h : ∀ name, source'.target? name line = source.target? name line) (b : Builtin)
    (params : List String) :
    b.prepare ⟨line, params, source'⟩ = b.prepare ⟨line, params, source⟩ := by
  by_cases hb : b = .call
  · subst hb
    simp only [prepare, prepareCall, Scope.param?, Scope.setParam, Scope.target?, h]
  · exact prepare_of_ne_call hb ⟨line, params, source⟩ line source'

namespace Catalog

variable {source source' : Source} {k : Nat}

/-- Two texts in which all targets are the same compile a command line alike. -/
theorem compileLine_of_targets
    (h : ∀ name own, source'.target? name own = source.target? name own) (c : SourceLine) :
    builtin.compileLine source' c = builtin.compileLine source c := by
  rw [compileLine, compileLine]
  cases hd : builtin.find? c.name with
  | none => rfl
  | some d =>
    obtain ⟨b, hkind, -, -⟩ := mem_builtin (List.mem_of_find?_eq_some hd)
    have hprepare : d.kind.prepare ⟨c.number, c.params, source'⟩ =
        d.kind.prepare ⟨c.number, c.params, source⟩ := by
      rw [hkind]
      exact b.prepare_congr (fun name => h name c.number) c.params
    dsimp only
    rw [hprepare]

/-- A command that is not called a label defines none. -/
theorem label?_eq_none {c : SourceLine} {i : Instruction}
    (h : builtin.compileLine source c = .ok i)
    (hname : sameName c.name Source.labelName = false) : i.label? = none := by
  rw [Instruction.label?, if_neg]
  intro hlabel
  have hsame : sameName c.name Source.labelName = true :=
    (name_eq_iff_of_compileLine h .label).mp hlabel
  rw [hname] at hsame
  cases hsame

/-- Compiling a command line of the edited text. Only the edited one can come out different, and
only that one can be refused. -/
theorem compileLine_edited
    (htarget : ∀ name own, source'.target? name own = source.target? name own)
    {c d : SourceLine} (hcd : c.Edited k d) {i : Instruction}
    (hi : builtin.compileLine source c = .ok i) :
    OkOr (i.Edited k) (fun e => e.line? = some k) (builtin.compileLine source' d) := by
  cases hcd with
  | kept =>
    rw [compileLine_of_targets htarget, hi]
    exact .refl k i
  | @edited name before after notLabel =>
    cases hj : builtin.compileLine source' ⟨k, name, after⟩ with
    | error e => exact (compileLine_error_iff.mp hj).line?
    | ok j =>
      have hline : i.line = k := line_of_compileLine hi
      -- Both names are the one in the catalog that the keyword stands for.
      have hname : j.name = i.name := by
        obtain ⟨b, hsame, -, -⟩ := builtin_of_compileLine hi
        rw [(name_eq_iff_of_compileLine hi b).mpr (sameName_symm hsame),
          (name_eq_iff_of_compileLine hj b).mpr (sameName_symm hsame)]
      show i.Edited k j
      refine ⟨(line_of_compileLine hj).trans hline.symm, hname, ?_, fun hne => absurd hline hne⟩
      rw [label?_eq_none hi notLabel, label?_eq_none hj notLabel]

/-- Compiling the command lines of the edited text. -/
theorem compileLines_edited
    (htarget : ∀ name own, source'.target? name own = source.target? name own)
    {cs ds : List SourceLine} (hcs : List.Forall₂ (SourceLine.Edited k) cs ds)
    {is : List Instruction} (h : builtin.compileLines source cs = .ok is) :
    OkOr (List.Forall₂ (Instruction.Edited k) is) (fun e => e.line? = some k)
      (builtin.compileLines source' ds) := by
  induction hcs generalizing is with
  | nil =>
    cases h
    exact .nil
  | @cons c d cs ds hcd _ ih =>
    rw [compileLines] at h ⊢
    split at h
    · cases h
    · rename_i i hi
      split at h
      · cases h
      · rename_i hrest
        cases h
        have hfirst := compileLine_edited htarget hcd hi
        have hrest' := ih hrest
        generalize builtin.compileLine source' d = x at hfirst
        generalize builtin.compileLines source' ds = xs at hrest'
        cases x with
        | error e => exact hfirst
        | ok j =>
          cases xs with
          | error e => exact hrest'
          | ok js => exact .cons hfirst hrest'

/-- Compiling the edited text, the old one being sound. -/
theorem compile_edited {keyword old new : String} (hedit : EditsParams keyword old new)
    (before after : List String) {script : Script}
    (h : builtin.compile (before ++ old :: after) = .ok script) :
    OkOr (script.Edited (before.length + 1)) (fun e => e.line? = some (before.length + 1))
      (builtin.compile (before ++ new :: after)) := by
  obtain ⟨source, hsource, hcount, hpairs⟩ := source_of_compile h
  obtain ⟨hcs, -⟩ := Source.commandLines_of_ofLines hsource
  have hlines := Source.commandLines_edit hedit after before hcs
  have hlength : (before ++ new :: after).length = script.lineCount := by
    rw [hcount, List.length_append, List.length_append, List.length_cons, List.length_cons]
  rw [Nat.add_comm 1] at hlines
  rw [compile, Source.ofLines]
  cases hnew : Source.commandLines 1 (before ++ new :: after) with
  | error u =>
    rw [hnew] at hlines
    show some u.number = some (before.length + 1)
    rw [show u.number = before.length + 1 from hlines]
  | ok ds =>
    rw [hnew] at hlines
    have hds : List.Forall₂ (SourceLine.Edited (before.length + 1)) source.lines ds := hlines
    have htarget : ∀ name own,
        (⟨ds, (before ++ new :: after).length⟩ : Source).target? name own =
          source.target? name own := Source.target?_edited hds
    have his := compileLines_edited htarget hds (compileLines_of_forall₂ hpairs)
    dsimp only
    generalize builtin.compileLines ⟨ds, (before ++ new :: after).length⟩ ds = x at his ⊢
    cases x with
    | error e => exact his
    | ok js => exact .of_instructions his hlength

/-- The parameters on one line of a text are edited, the line having the same command as before,
which is not a label. Suppose that the text compiled. If it still does, every instruction is the
same except for the one on that line, and so are the labels, the numbers of instructions and of
lines, and the instruction that each line selects. If it does not compile any more, it is the
edited line that is reported. -/
theorem compile_edited_params {keyword old new : String} (hedit : EditsParams keyword old new)
    (before after : List String) {script : Script}
    (h : builtin.compile (before ++ old :: after) = .ok script) :
    (∀ edited, builtin.compile (before ++ new :: after) = .ok edited →
      script.Edited (before.length + 1) edited) ∧
    ∀ e, builtin.compile (before ++ new :: after) = .error e →
      e.line? = some (before.length + 1) := by
  have hresult := compile_edited hedit before after h
  constructor
  · intro edited hedited
    rw [hedited] at hresult
    exact hresult
  · intro e he
    rw [he] at hresult
    exact hresult

/-- A pause that a jump by name leads to gets a comment and another length, or one that cannot be
read. The jump still leads to it. -/
theorem compile_edited_params_pause : ∃ script edited e,
    EditsParams "Wait" "Wait 5" "Wait 70 # ms" ∧ EditsParams "Wait" "Wait 5" "Wait soon" ∧
    builtin.compile (["Label a"] ++ "Wait 5" :: ["Call wait"]) = .ok script ∧
    builtin.compile (["Label a"] ++ "Wait 70 # ms" :: ["Call wait"]) = .ok edited ∧
    script.Edited 2 edited ∧
    edited.instructions.map Instruction.params = [["a"], ["70"], ["2"]] ∧
    builtin.compile (["Label a"] ++ "Wait soon" :: ["Call wait"]) = .error e ∧
    e.line? = some 2 := by
  have hlonger : EditsParams "Wait" "Wait 5" "Wait 70 # ms" := by
    constructor <;> decide +kernel
  have hsoon : EditsParams "Wait" "Wait 5" "Wait soon" := by
    constructor <;> decide +kernel
  have hcompile : builtin.compile (["Label a"] ++ "Wait 5" :: ["Call wait"]) =
      .ok ⟨[⟨1, ["a"], .label "a"⟩, ⟨2, ["5"], .wait (.ofMillis 5) (.ofMillis 5)⟩,
        ⟨3, ["2"], .call 2⟩], 3⟩ := by
    with_unfolding_all rfl
  have hedited : builtin.compile (["Label a"] ++ "Wait 70 # ms" :: ["Call wait"]) =
      .ok ⟨[⟨1, ["a"], .label "a"⟩, ⟨2, ["70"], .wait (.ofMillis 70) (.ofMillis 70)⟩,
        ⟨3, ["2"], .call 2⟩], 3⟩ := by
    with_unfolding_all rfl
  have herror : ∃ e, builtin.compile (["Label a"] ++ "Wait soon" :: ["Call wait"]) = .error e :=
    ⟨_, by with_unfolding_all rfl⟩
  obtain ⟨e, he⟩ := herror
  exact ⟨_, _, e, hlonger, hsoon, hcompile, hedited,
    (compile_edited_params hlonger ["Label a"] ["Call wait"] hcompile).1 _ hedited, rfl, he,
    (compile_edited_params hsoon ["Label a"] ["Call wait"] hcompile).2 e he⟩

end Catalog

end InputScript
