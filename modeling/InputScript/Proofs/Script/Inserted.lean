import InputScript.Proofs.Script.Listing

/-!
# `InputScript.Proofs.Script.Inserted`: a blank line or a comment put into a script

A line without a command may be put anywhere into a script. The lines behind it get the next
number, and so do the targets of jumps by name, which are found by line. A jump by number keeps
its number, and so it may lead elsewhere afterwards.

The theorems follow the new numbers through the compiler. Splitting the longer text gives the old
command lines with new numbers, and a search for a target finds the old line under its new number.
Nothing else in a command line, an instruction or an error depends on the numbers of lines.

* `read_eq_nothing_iff`: which lines hold no command.
* `Source.ofLines_insert`: splitting the longer text.
* `Source.target?_shift`: searching for a target in it.
* `Catalog.compileLine_shift`, `Catalog.compileLines_shift`: compiling its command lines.
* `compile_insert_idle`: the whole statement, for scripts that compile and for those that do not.
-/

set_option autoImplicit false

namespace InputScript

open Number Text

/-! ### Lines without a command -/

/-- A line without a command: it is blank, or a comment begins with its first character that is no
blank. -/
def IsIdle (line : String) : Prop :=
  ∃ gap, IsGap gap ∧ (line.toList = gap ∨ ∃ comment, line.toList = gap ++ '#' :: comment)

/-- A line is read as nothing exactly when it is blank or a comment. -/
theorem read_eq_nothing_iff (line : String) : LineContent.read line = .nothing ↔ IsIdle line := by
  rw [LineContent.read_eq_nothing]
  constructor
  · obtain ⟨before, after, hbefore, hafter, hline⟩ := exists_trim_eq line.toList
    rintro (hblank | hcomment)
    · rw [hblank, List.append_nil] at hline
      refine ⟨before ++ after, ?_, .inl hline⟩
      intro c hc
      exact (List.mem_append.mp hc).elim (hbefore c) (hafter c)
    · obtain ⟨comment, hcomment⟩ := List.head?_eq_some_iff.mp hcomment
      rw [hcomment, List.append_assoc, List.cons_append] at hline
      exact ⟨before, hbefore, .inr ⟨_, hline⟩⟩
  · rintro ⟨gap, hgap, hline | ⟨comment, hline⟩⟩
    · left
      have hnil : Trimmed [] := ⟨by simp, by simp⟩
      rw [hline, ← List.nil_append gap, hgap.trim_append hnil]
    · right
      have htrim : trim (gap ++ '#' :: comment) = '#' :: trimEnd comment := by
        rw [trim, hgap.trimStart_append]
        exact trimEnd_append_cons (by decide) [] comment
      rw [hline, htrim, List.head?_cons]

instance (line : String) : Decidable (IsIdle line) :=
  decidable_of_iff _ (read_eq_nothing_iff line)

/-! ### New numbers of lines -/

/-- The new number of a line when another one is put behind the first `k` lines. -/
def shifted (k line : Nat) : Nat :=
  if line ≤ k then line else line + 1

theorem shifted_of_le {k line : Nat} (h : line ≤ k) : shifted k line = line :=
  if_pos h

theorem shifted_of_lt {k line : Nat} (h : k < line) : shifted k line = line + 1 :=
  if_neg (Nat.not_le.mpr h)

/-- New numbers are in the order of the old ones. -/
theorem shifted_lt_iff (k : Nat) {a b : Nat} : shifted k a < shifted k b ↔ a < b := by
  unfold shifted
  split <;> split <;> omega

/-- Different lines get different numbers. -/
theorem shifted_inj (k : Nat) {a b : Nat} : shifted k a = shifted k b ↔ a = b := by
  unfold shifted
  split <;> split <;> omega

/-- A command line under its new number. -/
def SourceLine.shift (k : Nat) (c : SourceLine) : SourceLine :=
  { c with number := shifted k c.number }

/-- An open quote on a line with a new number. -/
def UnclosedQuote.shift (k : Nat) (u : UnclosedQuote) : UnclosedQuote :=
  { u with number := shifted k u.number }

/-- The same error on a line with a new number. -/
def CompileError.shift (k : Nat) : CompileError → CompileError
  | unknownCommand name line => unknownCommand name (shifted k line)
  | invalidParameters command line reason => invalidParameters command (shifted k line) reason
  | unresolvedTarget name line => unresolvedTarget name (shifted k line)
  | unreadable path cause => unreadable path cause

/-! ### Splitting the longer text -/

namespace Source

/-- A script as it is split when a line without a command is put behind its first `k` lines. -/
def shift (k : Nat) (source : Source) : Source :=
  ⟨source.lines.map (SourceLine.shift k), source.lineCount + 1⟩

/-- Behind the new line all numbers grow by one. -/
theorem commandLines_succ {k number : Nat} (hk : k < number) (lines : List String) :
    commandLines (number + 1) lines =
      ((commandLines number lines).map (List.map (SourceLine.shift k))).mapError
        (UnclosedQuote.shift k) := by
  induction lines generalizing number with
  | nil => rfl
  | cons text rest ih =>
    have hnumber : shifted k number = number + 1 := shifted_of_lt hk
    rw [commandLines, commandLines]
    cases LineContent.read text with
    | nothing => exact ih (Nat.lt_succ_of_lt hk)
    | unclosed name =>
      show Except.error (⟨number + 1, name⟩ : UnclosedQuote) =
        Except.error ⟨shifted k number, name⟩
      rw [hnumber]
    | command name params =>
      dsimp only
      rw [ih (Nat.lt_succ_of_lt hk)]
      cases commandLines (number + 1) rest with
      | error u => rfl
      | ok cs =>
        show Except.ok (⟨number + 1, name, params⟩ :: cs.map (SourceLine.shift k)) =
          Except.ok (⟨shifted k number, name, params⟩ :: cs.map (SourceLine.shift k))
        rw [hnumber]

/-- A line without a command changes only the numbers of the command lines behind it. -/
theorem commandLines_insert {z : String} (hz : LineContent.read z = .nothing) {k number : Nat}
    (before after : List String) (hk : number + before.length = k + 1) :
    commandLines number (before ++ z :: after) =
      ((commandLines number (before ++ after)).map (List.map (SourceLine.shift k))).mapError
        (UnclosedQuote.shift k) := by
  induction before generalizing number with
  | nil =>
    rw [List.length_nil] at hk
    rw [List.nil_append, List.nil_append, commandLines, hz]
    exact commandLines_succ (by omega) after
  | cons text before ih =>
    rw [List.length_cons] at hk
    have hnumber : shifted k number = number := shifted_of_le (by omega)
    have hnext : number + 1 + before.length = k + 1 := by omega
    have hrest := ih hnext
    rw [List.cons_append, List.cons_append, commandLines, commandLines]
    cases LineContent.read text with
    | nothing => exact hrest
    | unclosed name =>
      show Except.error (⟨number, name⟩ : UnclosedQuote) = Except.error ⟨shifted k number, name⟩
      rw [hnumber]
    | command name params =>
      dsimp only
      rw [hrest]
      cases commandLines (number + 1) (before ++ after) with
      | error u => rfl
      | ok cs =>
        show Except.ok (⟨number, name, params⟩ :: cs.map (SourceLine.shift k)) =
          Except.ok (⟨shifted k number, name, params⟩ :: cs.map (SourceLine.shift k))
        rw [hnumber]

/-- Splitting the longer text gives the script as it was, with new numbers. -/
theorem ofLines_insert {z : String} (hz : IsIdle z) (before after : List String) :
    ofLines (before ++ z :: after) =
      ((ofLines (before ++ after)).map (shift before.length)).mapError
        (UnclosedQuote.shift before.length) := by
  have hlines := commandLines_insert ((read_eq_nothing_iff z).mpr hz) before after
    (Nat.add_comm 1 before.length)
  have hlength : (before ++ z :: after).length = (before ++ after).length + 1 := by
    rw [List.length_append, List.length_append, List.length_cons]
    omega
  rw [ofLines, ofLines, hlines, hlength]
  cases commandLines 1 (before ++ after) <;> rfl

/-- The search for a target finds the old line under its new number. -/
theorem target?_shift (k : Nat) (source : Source) (name : String) (own : Nat) :
    (source.shift k).target? name (shifted k own) =
      (source.target? name own).map (shifted k) := by
  have hlabel : isLabelFor name ∘ SourceLine.shift k = isLabelFor name := rfl
  have hcommand : (fun line : SourceLine =>
      line.number != shifted k own && sameName line.name name) ∘ SourceLine.shift k =
        fun line : SourceLine => line.number != own && sameName line.name name := by
    funext line
    show (shifted k line.number != shifted k own && sameName line.name name) = _
    congr 1
    rw [Bool.eq_iff_iff, bne_iff_ne, bne_iff_ne, ne_eq, shifted_inj]
  simp only [target?, shift, List.find?_map, hlabel, hcommand, ← Option.map_or, Option.map_map]
  rfl

end Source

/-! ### Results under old and new numbers -/

/-- Two results that are in step: both are fine and related, or both are errors, the second being
what `f` makes of the first. -/
inductive InStep {ε α β : Type} (R : α → β → Prop) (f : ε → ε) : Except ε α → Except ε β → Prop
  | ok {a : α} {b : β} : R a b → InStep R f (.ok a) (.ok b)
  | error (e : ε) : InStep R f (.error e) (.error (f e))

theorem InStep.imp {ε α β : Type} {R S : α → β → Prop} {f : ε → ε} {x : Except ε α}
    {y : Except ε β} (h : InStep R f x y) (hRS : ∀ a b, x = .ok a → y = .ok b → R a b → S a b) :
    InStep S f x y := by
  cases h with
  | ok hab => exact .ok (hRS _ _ rfl rfl hab)
  | error e => exact .error e

/-- Preparing a command under its new number. Only a jump comes out different, and it is a jump
again. -/
theorem Builtin.prepare_shift (b : Builtin) (k line : Nat) (params : List String)
    (source : Source) :
    InStep (fun p q => q.command.name = p.command.name ∧
        (p.command.name ≠ Builtin.call.name → q = p)) id
      (b.prepare ⟨line, params, source⟩)
      (b.prepare ⟨shifted k line, params, source.shift k⟩) := by
  by_cases hb : b = .call
  · subst hb
    simp only [prepare, prepareCall, Scope.param?, Scope.target?, Source.target?_shift]
    cases params[0]? with
    | none => exact .error _
    | some raw =>
      dsimp only
      cases integer64? raw with
      | some n => exact .ok ⟨rfl, fun hne => absurd rfl hne⟩
      | none =>
        dsimp only
        cases source.target? raw line with
        | none => exact .error _
        | some target => exact .ok ⟨rfl, fun hne => absurd rfl hne⟩
  · have hsame := prepare_of_ne_call hb ⟨line, params, source⟩ (shifted k line) (source.shift k)
    rw [hsame]
    cases b.prepare ⟨line, params, source⟩ with
    | ok p => exact .ok ⟨rfl, fun _ => rfl⟩
    | error e => exact .error e

namespace Catalog

/-- Compiling a command line under its new number. -/
theorem compileLine_inStep (k : Nat) (source : Source) (c : SourceLine) :
    InStep (fun i j => j.name = i.name ∧
        (i.name ≠ Builtin.call.name → j.params = i.params ∧ j.command = i.command))
      (CompileError.shift k) (builtin.compileLine source c)
      (builtin.compileLine (source.shift k) (c.shift k)) := by
  obtain ⟨number, name, params⟩ := c
  have hshift : SourceLine.shift k ⟨number, name, params⟩ = ⟨shifted k number, name, params⟩ := rfl
  rw [hshift, compileLine, compileLine]
  dsimp only
  cases hd : builtin.find? name with
  | none => exact .error _
  | some d =>
    dsimp only
    by_cases hcount : d.arity.accepts params.length = true
    · rw [if_pos hcount, if_pos hcount]
      obtain ⟨b, hkind, -, -⟩ := mem_builtin (List.mem_of_find?_eq_some hd)
      have hprepare := b.prepare_shift k number params source
      have hbuiltin (scope : Scope) : (CommandKind.builtin b).prepare scope = b.prepare scope := rfl
      rw [hkind, hbuiltin, hbuiltin]
      generalize b.prepare ⟨number, params, source⟩ = x at hprepare
      generalize b.prepare ⟨shifted k number, params, source.shift k⟩ = y at hprepare
      cases hprepare with
      | ok hpq =>
        refine .ok ⟨hpq.1, fun hne => ?_⟩
        rw [hpq.2 hne]
        exact ⟨rfl, rfl⟩
      | error e => cases e <;> exact .error _
    · rw [if_neg hcount, if_neg hcount]
      exact .error _

end Catalog

/-! ### Instructions and scripts -/

/-- What becomes of an instruction of a text when a line without a command is put behind the first
`k` lines. -/
structure Instruction.Moved (lines : List String) (k : Nat) (i j : Instruction) : Prop where
  name : j.name = i.name
  line : j.line = shifted k i.line
  /-- Apart from jumps, an instruction stays as it is. -/
  same : i.name ≠ Builtin.call.name → j.params = i.params ∧ j.command = i.command
  /-- A jump by number keeps its parameter. The target of a jump by name is the old line under its
  new number. -/
  jump : i.name = Builtin.call.name → ∃ keyword p, Holds lines i.line keyword [p] ∧
    (∀ n, integer64? p = some n → i.params = [p] ∧ i.command = .call n ∧
      j.params = [p] ∧ j.command = .call n) ∧
    (integer64? p = none → ∃ target : Nat,
      i.params = [toString target] ∧ i.command = .call target ∧
      j.params = [toString (shifted k target)] ∧ j.command = .call (shifted k target))

/-- What becomes of a script when a line without a command is put behind the first `k` lines of its
text. -/
structure Script.Moved (lines : List String) (k : Nat) (s t : Script) : Prop where
  /-- There are as many instructions as before, in the same order. -/
  instructions : List.Forall₂ (Instruction.Moved lines k) s.instructions t.instructions
  labels : t.labels = s.labels
  /-- A line under its new number selects the same instruction. -/
  indexForLine : ∀ line, t.indexForLine (shifted k line) = s.indexForLine line
  lineCount : t.lineCount = s.lineCount + 1

/-- A moved instruction defines the same label. -/
theorem Instruction.Moved.label?_eq {lines : List String} {k : Nat} {i j : Instruction}
    (h : i.Moved lines k j) : j.label? = i.label? := by
  rw [label?, label?, h.name]
  split
  · rename_i hlabel
    have hne : i.name ≠ Builtin.call.name := by
      rw [hlabel]
      decide
    rw [(h.same hne).1]
  · rfl

namespace Script

/-- The label table depends on nothing but the labels of the instructions. -/
theorem addLabels_congr {is js : List Instruction}
    (h : List.Forall₂ (fun i j => j.label? = i.label?) is js) (index : Nat)
    (table : List (String × Nat)) : addLabels index table js = addLabels index table is := by
  induction h generalizing index table with
  | nil => rfl
  | cons hij _ ih =>
    rw [addLabels, addLabels, hij]
    split
    · exact ih _ _
    · exact ih _ _

/-- As many instructions lie before a line as before the line under its new number, when new
numbers are in the order of the old ones. -/
theorem length_takeWhile_renumbered {f : Nat → Nat} (hf : ∀ a b, f a < f b ↔ a < b)
    {is js : List Instruction} (h : List.Forall₂ (fun i j => j.line = f i.line) is js)
    (line : Nat) :
    (js.takeWhile fun j => decide (j.line < f line)).length =
      (is.takeWhile fun i => decide (i.line < line)).length := by
  induction h with
  | nil => rfl
  | @cons i j is js hij _ ih =>
    have hlt : decide (j.line < f line) = decide (i.line < line) := by
      rw [decide_eq_decide, hij, hf]
    rw [List.takeWhile_cons, List.takeWhile_cons, hlt]
    split
    · rw [List.length_cons, List.length_cons, ih]
    · rfl

/-- Instructions that move one by one move together with their script. -/
theorem Moved.of_instructions {lines : List String} {k : Nat} {s t : Script}
    (h : List.Forall₂ (Instruction.Moved lines k) s.instructions t.instructions)
    (hcount : t.lineCount = s.lineCount + 1) : s.Moved lines k t where
  instructions := h
  labels := addLabels_congr (h.imp fun _ _ hij => hij.label?_eq) 0 []
  indexForLine := length_takeWhile_renumbered (fun _ _ => shifted_lt_iff k)
    (h.imp fun _ _ hij => hij.line)
  lineCount := hcount

end Script

/-! ### Compiling the longer text -/

namespace Catalog

variable {lines : List String} {source : Source}

/-- What becomes of the instruction of a line. Both come from the one line, so a jump was prepared
from the same parameter both times. -/
theorem compileLine_shift (hsource : Source.ofLines lines = .ok source) {c : SourceLine}
    (hc : c ∈ source.lines) (k : Nat) :
    InStep (Instruction.Moved lines k) (CompileError.shift k) (builtin.compileLine source c)
      (builtin.compileLine (source.shift k) (c.shift k)) := by
  refine (compileLine_inStep k source c).imp ?_
  rintro i j hi hj ⟨hname, hsame⟩
  have hline : i.line = c.number := line_of_compileLine hi
  have hline' : j.line = shifted k c.number := line_of_compileLine hj
  refine ⟨hname, hline'.trans (congrArg (shifted k) hline.symm), hsame, ?_⟩
  intro hcall
  obtain ⟨p, hp, hnumber, htarget⟩ := call_of_compileLine hi hcall
  obtain ⟨p', hp', hnumber', htarget'⟩ := call_of_compileLine hj (hname.trans hcall)
  obtain rfl : p' = p := List.singleton_inj.mp (hp'.symm.trans hp)
  have hholds := (Source.mem_lines_iff hsource c).mp hc
  rw [hp, ← hline] at hholds
  refine ⟨c.name, p', hholds, ?_, ?_⟩
  · intro n hn
    obtain ⟨hcommand, hparams⟩ := hnumber n hn
    obtain ⟨hcommand', hparams'⟩ := hnumber' n hn
    exact ⟨hparams, hcommand, hparams', hcommand'⟩
  · intro hnone
    obtain ⟨target, hsearch, hcommand, hparams⟩ := htarget hnone
    obtain ⟨target', hsearch', hcommand', hparams'⟩ := htarget' hnone
    -- The second search finds the line of the first under its new number.
    have hfound : (source.target? p' c.number).map (shifted k) = some target' := by
      rw [← Source.target?_shift]
      exact hsearch'
    rw [hsearch, Option.map_some, Option.some_inj] at hfound
    subst hfound
    exact ⟨target, hparams, hcommand, hparams', hcommand'⟩

/-- Compiling command lines under their new numbers. The first one that is refused still is the
first. -/
theorem compileLines_shift (k : Nat) {R : Instruction → Instruction → Prop}
    {cs : List SourceLine}
    (h : ∀ c ∈ cs, InStep R (CompileError.shift k) (builtin.compileLine source c)
      (builtin.compileLine (source.shift k) (c.shift k))) :
    InStep (List.Forall₂ R) (CompileError.shift k) (builtin.compileLines source cs)
      (builtin.compileLines (source.shift k) (cs.map (SourceLine.shift k))) := by
  induction cs with
  | nil => exact .ok .nil
  | cons c cs ih =>
    rw [List.forall_mem_cons] at h
    obtain ⟨hfirst, hrest⟩ := h
    specialize ih hrest
    rw [List.map_cons, compileLines, compileLines]
    generalize builtin.compileLine source c = x at hfirst
    generalize builtin.compileLine (source.shift k) (c.shift k) = y at hfirst
    generalize builtin.compileLines source cs = xs at ih
    generalize builtin.compileLines (source.shift k) (cs.map (SourceLine.shift k)) = ys at ih
    cases hfirst with
    | error e => exact .error e
    | ok hij =>
      cases ih with
      | error e => exact .error e
      | ok hrest => exact .ok (.cons hij hrest)

/-- Compiling a text and the text with one more line that holds no command. -/
theorem compile_inStep {z : String} (hz : IsIdle z) (before after : List String) :
    InStep (Script.Moved (before ++ after) before.length) (CompileError.shift before.length)
      (builtin.compile (before ++ after)) (builtin.compile (before ++ z :: after)) := by
  rw [compile, compile, Source.ofLines_insert hz]
  cases hsource : Source.ofLines (before ++ after) with
  | error u => exact .error _
  | ok source =>
    have hlines := compileLines_shift before.length
      fun c hc => compileLine_shift hsource (c := c) hc before.length
    have hshift : (source.shift before.length).lines =
        source.lines.map (SourceLine.shift before.length) := rfl
    dsimp only [Except.map, Except.mapError]
    rw [hshift]
    generalize builtin.compileLines source source.lines = x at hlines
    generalize builtin.compileLines (source.shift before.length)
      (source.lines.map (SourceLine.shift before.length)) = y at hlines
    cases hlines with
    | error e => exact .error e
    | ok hmoved => exact .ok (.of_instructions hmoved rfl)

/-- A blank line or a comment put anywhere into a text. If the text compiled, it still does, and
the script is the old one with new numbers of lines. If it did not, it still does not, and the error
is the old one on the line under its new number. What the line looks like makes no difference. -/
theorem compile_insert_idle {z : String} (hz : IsIdle z) (before after : List String) :
    (∀ script, builtin.compile (before ++ after) = .ok script →
      ∃ moved, builtin.compile (before ++ z :: after) = .ok moved ∧
        script.Moved (before ++ after) before.length moved) ∧
    (∀ e, builtin.compile (before ++ after) = .error e →
      builtin.compile (before ++ z :: after) = .error (e.shift before.length)) ∧
    ∀ z', IsIdle z' →
      builtin.compile (before ++ z' :: after) = builtin.compile (before ++ z :: after) := by
  have hstep := compile_inStep hz before after
  refine ⟨?_, ?_, ?_⟩
  · intro script h
    rw [h] at hstep
    generalize builtin.compile (before ++ z :: after) = y at hstep
    cases hstep with
    | ok hmoved => exact ⟨_, rfl, hmoved⟩
  · intro e h
    rw [h] at hstep
    generalize builtin.compile (before ++ z :: after) = y at hstep
    cases hstep with
    | error e => rfl
  · intro z' hz'
    rw [compile, compile, Source.ofLines_insert hz', Source.ofLines_insert hz]

/-- A comment in front of a label that is jumped to by name, and behind a jump by number: one target
moves and the other is kept. -/
theorem compile_insert_idle_comment : ∃ script moved,
    IsIdle " # note" ∧
    builtin.compile (["Call end", "Call 2"] ++ ["Label end"]) = .ok script ∧
    builtin.compile (["Call end", "Call 2"] ++ " # note" :: ["Label end"]) = .ok moved ∧
    script.Moved (["Call end", "Call 2"] ++ ["Label end"]) 2 moved ∧
    moved.instructions.map Instruction.params = [["4"], ["2"], ["end"]] := by
  have hidle : IsIdle " # note" := ⟨[' '], by decide, .inr ⟨" note".toList, by decide⟩⟩
  have hcompile : builtin.compile (["Call end", "Call 2"] ++ ["Label end"]) =
      .ok ⟨[⟨1, ["3"], .call 3⟩, ⟨2, ["2"], .call 2⟩, ⟨3, ["end"], .label "end"⟩], 3⟩ := by
    with_unfolding_all rfl
  obtain ⟨moved, hmoved, hscript⟩ := (compile_insert_idle hidle _ _).1 _ hcompile
  have hparams : builtin.compile (["Call end", "Call 2"] ++ " # note" :: ["Label end"]) =
      .ok ⟨[⟨1, ["4"], .call 4⟩, ⟨2, ["2"], .call 2⟩, ⟨4, ["end"], .label "end"⟩], 4⟩ := by
    with_unfolding_all rfl
  obtain rfl := Except.ok.inj (hparams.symm.trans hmoved)
  exact ⟨_, _, hidle, hcompile, hmoved, hscript, rfl⟩

end Catalog

end InputScript
