import InputScript.Proofs.Engine.BuiltinCourse

/-!
# `InputScript.Proofs.Engine.Control`: which instruction a run begins next

Control passes from an instruction to the one behind it, unless the instruction is a jump to a
line or a stop. So the events of a run tell which instruction is next: none has begun yet and it
is the first, or it is the one to which the instruction in progress hands over
(`Script.control?`). No worker, phase or program is needed to say so.

* `Left.run`: what a program that is left of an instruction does about control.
* `Script.InOrder`: each instruction of a run is the one that was next.
* `Course.Reaches.controlled`: wherever a run of built-in commands stands, its instructions have
  begun in order, and where it stands goes with where control is.
* `Course.Seen.controlled`: so it is where a run is seen.
-/

set_option autoImplicit false

namespace InputScript

open Program (Gesture)

/-- The instruction that began last is in progress. -/
theorem inProgress?_of_begun (earlier : List (Nat × Event)) (time line : Nat) (name : String)
    {quiet : List (Nat × Event)} (hquiet : ∀ entry ∈ quiet, entry.2.begun? = none) :
    inProgress? (earlier ++ (time, .executing line name) :: quiet) = some (line, name) := by
  calc
    inProgress? (earlier ++ (time, .executing line name) :: quiet) =
        inProgress? ((earlier ++ [(time, .executing line name)]) ++ quiet) := by
      rw [List.append_assoc]
      rfl
    _ = inProgress? (earlier ++ [(time, .executing line name)]) := Engine.inProgress?_append hquiet
    _ = some (line, name) := by simp [inProgress?, Event.begun?]

/-- Whether each instruction that begins among events does so behind events, and with a line and a
name, that have a property. -/
def EachBegins (P : List (Nat × Event) → Nat → String → Prop) (part : List (Nat × Event)) : Prop :=
  ∀ before time line name after, part = before ++ (time, .executing line name) :: after →
    P before line name

namespace EachBegins

variable {P : List (Nat × Event) → Nat → String → Prop} {part new : List (Nat × Event)}

theorem nil : EachBegins P [] := by
  intro before time line name after h
  simp at h

/-- Events with which no instruction begins change nothing. -/
theorem append (h : EachBegins P part) (hnew : ∀ entry ∈ new, entry.2.begun? = none) :
    EachBegins P (part ++ new) := by
  intro before time line name after hsplit
  have hnot : (time, Event.executing line name) ∉ new := by
    intro hmem
    have hnone := hnew _ hmem
    cases hnone
  -- The instruction has begun among the old events.
  rcases List.append_eq_append_iff.mp hsplit with ⟨rest, -, hrest⟩ | ⟨rest, hpart, hrest⟩
  · exact absurd (hrest ▸ List.mem_append_right rest List.mem_cons_self) hnot
  · cases rest with
    | nil =>
      rw [List.nil_append] at hrest
      exact absurd (hrest ▸ List.mem_cons_self) hnot
    | cons entry rest =>
      obtain ⟨rfl, -⟩ := List.cons.inj hrest
      exact h before time line name rest hpart

/-- One more instruction begins. -/
theorem begin (h : EachBegins P part) (time : Nat) {line : Nat} {name : String}
    (hbegun : P part line name) : EachBegins P (part ++ [(time, .executing line name)]) := by
  intro before time' line' name' after hsplit
  rcases split_concat hsplit with ⟨rfl, hentry, -⟩ | ⟨rest, -, hpart⟩
  · cases hentry
    exact hbegun
  · exact h before time' line' name' rest hpart

end EachBegins

/-! ### Where control passes -/

/-- Whether a command leaves control to the next instruction. -/
def Command.HandsOver (c : Command) : Prop :=
  c ≠ .stop ∧ ∀ target, c = .call target → target ≤ 0

namespace Script

/-- The index to which control passes from the instruction at an index. A stop keeps it, and a
jump to a line from one on passes it to the first instruction at or after that line. -/
def successor? (script : Script) (index : Nat) : Option Nat :=
  match (script.instructions[index]?).map Instruction.command with
  | none => none
  | some .stop => none
  | some (.call target) =>
    if 0 < target then some (script.indexForLine target.toNat) else some (index + 1)
  | some _ => some (index + 1)

/-- The index at which control is behind the events of a run. -/
def control? (script : Script) (part : List (Nat × Event)) : Option Nat :=
  match inProgress? part with
  | none => some 0
  | some (line, _) => script.successor? (script.indexForLine line)

/-- The instruction that is next behind the events of a run. -/
def next? (script : Script) (part : List (Nat × Event)) : Option Instruction :=
  (script.control? part).bind fun index => script.instructions[index]?

/-- Each instruction that begins among the events of a run is the one that was next. -/
def InOrder (script : Script) (part : List (Nat × Event)) : Prop :=
  ∀ before time line name after, part = before ++ (time, .executing line name) :: after →
    ∃ i, script.next? before = some i ∧ i.line = line ∧ i.name = name

variable {script : Script} {index : Nat} {i : Instruction} {part new : List (Nat × Event)}

/-- An instruction is known by its line. -/
theorem eq_of_line (hsorted : script.instructions.Pairwise fun a b => a.line < b.line)
    (hi : script.instructions[index]? = some i) {other : Nat} {j : Instruction}
    (hj : script.instructions[other]? = some j) (hline : j.line = i.line) :
    other = index ∧ j = i := by
  have hindex : other = index := by
    rw [← indexForLine_line hsorted hj, hline, indexForLine_line hsorted hi]
  refine ⟨hindex, ?_⟩
  rw [hindex, hi] at hj
  exact (Option.some.inj hj).symm

/-- A jump to a line from one on. -/
theorem successor?_jump (hi : script.instructions[index]? = some i) {target : Int}
    (hcall : i.command = .call target) (hforward : 0 < target) :
    script.successor? index = some (script.indexForLine target.toNat) := by
  simp [successor?, hi, hcall, hforward]

/-- Any other instruction but a stop. -/
theorem successor?_pass (hi : script.instructions[index]? = some i)
    (hpass : i.command.HandsOver) : script.successor? index = some (index + 1) := by
  obtain ⟨hstop, hcall⟩ := hpass
  rw [successor?, hi, Option.map_some]
  split
  · rename_i hnone
    cases hnone
  · rename_i hcommand
    exact absurd (Option.some.inj hcommand) hstop
  · rename_i target hcommand
    rw [if_neg (Int.not_lt.mpr (hcall target (Option.some.inj hcommand)))]
  · rfl

/-- Behind the beginning of an instruction, control is where the instruction passes it. -/
theorem control?_of_inProgress? (hsorted : script.instructions.Pairwise fun a b => a.line < b.line)
    (hi : script.instructions[index]? = some i) (hlast : inProgress? part = some (i.line, i.name)) :
    script.control? part = script.successor? index := by
  rw [control?, hlast]
  dsimp only
  rw [indexForLine_line hsorted hi]

/-- While no instruction begins control stays where it is. -/
theorem control?_append (hnew : ∀ entry ∈ new, entry.2.begun? = none) :
    script.control? (part ++ new) = script.control? part := by
  rw [control?, control?, Engine.inProgress?_append hnew]

theorem InOrder.nil : script.InOrder [] :=
  EachBegins.nil

/-- Events with which no instruction begins change nothing. -/
theorem InOrder.append (h : script.InOrder part) (hnew : ∀ entry ∈ new, entry.2.begun? = none) :
    script.InOrder (part ++ new) :=
  EachBegins.append h hnew

/-- The instruction that is next may begin. -/
theorem InOrder.begin (h : script.InOrder part) (hnext : script.next? part = some i)
    (time : Nat) : script.InOrder (part ++ [(time, .executing i.line i.name)]) :=
  EachBegins.begin h time ⟨i, hnext, rfl, rfl⟩

end Script

/-! ### A program -/

/-- No instruction begins while a program runs. -/
theorem Program.run_begins_nothing {env : Surroundings} {p : Program} {s s' : Stage} {halt : Halt}
    (hrun : p.run env s = (s', halt)) :
    ∃ new, s'.history.reverse = s.history.reverse ++ new ∧
      ∀ entry ∈ new, entry.2.begun? = none := by
  induction p generalizing s with
  | done =>
    cases hrun
    exact ⟨[], by simp⟩
  | fail cause =>
    cases hrun
    exact ⟨[], by simp⟩
  | crash =>
    cases hrun
    exact ⟨[], by simp⟩
  | call effect next failed ih ihfailed =>
    have hcalled := s.reverse_history_call env.device effect
    have hcall := s.begun?_callEvents env.device effect
    -- Whatever runs behind the call adds its own events.
    have hbehind (h : ∃ new, s'.history.reverse =
        (s.call env.device effect).history.reverse ++ new ∧
          ∀ entry ∈ new, entry.2.begun? = none) :
        ∃ new, s'.history.reverse = s.history.reverse ++ new ∧
          ∀ entry ∈ new, entry.2.begun? = none := by
      obtain ⟨new, hnew, hquiet⟩ := h
      refine ⟨s.callEvents env.device effect ++ new, ?_,
        List.forall_mem_append.mpr ⟨hcall, hquiet⟩⟩
      rw [hnew, hcalled, List.append_assoc]
    rw [Program.run] at hrun
    split at hrun
    · exact hbehind (ih hrun)
    · exact hbehind (ihfailed _ hrun)
    · cases hrun
      exact ⟨_, hcalled, hcall⟩
  | pause span next ih =>
    rw [Program.run] at hrun
    split at hrun
    · exact ih _ hrun
    · cases hrun
      exact ⟨[], by simp⟩
  | stopping next ih => exact ih s.cancelled hrun
  | jump line next ih | stop next ih =>
    obtain ⟨new, hnew, hquiet⟩ := ih hrun
    exact ⟨new, hnew, hquiet⟩
  | choose low high next ih =>
    obtain ⟨new, hnew, hquiet⟩ := ih _ hrun
    exact ⟨new, hnew, hquiet⟩

/-- Whether a command neither jumps nor stops. -/
def Command.IsPlain (c : Command) : Prop :=
  c ≠ .stop ∧ ∀ target, c ≠ .call target

theorem Command.IsPlain.handsOver {c : Command} (h : c.IsPlain) : c.HandsOver :=
  ⟨h.1, fun target htarget => absurd htarget (h.2 target)⟩

/-- What may be left to run of an instruction. -/
inductive Left (i : Instruction) : Program → Prop where
  | call (target : Int) (h : i.command = .call target) : Left i i.command.program
  | stop (h : i.command = .stop) : Left i (.stop .done)
  | gesture {p : Program} (hplain : i.command.IsPlain) (h : Gesture p) : Left i p

/-- How a program comes to a halt that was left of an instruction, and what it asks for. -/
inductive Leaves (i : Instruction) : Option Transfer → Halt → Prop where
  | jump (target : Int) (h : i.command = .call target) (hforward : 0 < target) :
      Leaves i (some (.line target.toNat)) .returned
  | stop (h : i.command = .stop) : Leaves i (some .stop) .returned
  | pass (h : i.command.HandsOver) : Leaves i none .returned
  | sleep (wake : Nat) (rest : Bool → Program) (hplain : i.command.IsPlain)
      (hrest : ∀ full, Gesture (rest full)) : Leaves i none (.asleep wake rest)
  | refused (halt : Halt) (transfer : Option Transfer) (hplain : i.command.IsPlain)
      (h : halt = .crashed ∨ ∃ cause, halt = .failed cause) : Leaves i transfer halt

/-- All of a built-in command is left when its instruction begins. -/
theorem Left.program {i : Instruction} (h : i.command.IsBuiltin) : Left i i.command.program := by
  by_cases hcall : ∃ target, i.command = .call target
  · obtain ⟨target, htarget⟩ := hcall
    exact .call target htarget
  by_cases hstop : i.command = .stop
  · rw [hstop]
    exact .stop hstop
  · have hplain : i.command.IsPlain := ⟨hstop, fun target htarget => hcall ⟨target, htarget⟩⟩
    exact .gesture hplain (Command.gesture_program h hplain.handsOver.2 hstop)

/-- What is left of an instruction asks for a transfer just as the command says, and only plain
commands sleep or are refused an effect. -/
theorem Left.run {env : Surroundings} {i : Instruction} {p : Program} {s s' : Stage} {halt : Halt}
    (h : Left i p) (hnone : s.transfer = none) (hrun : p.run env s = (s', halt)) :
    Leaves i s'.transfer halt := by
  cases h with
  | call target htarget =>
    rw [htarget] at hrun
    by_cases hforward : 0 < target
    · rw [Command.program_of_forward hforward] at hrun
      cases hrun
      exact .jump target htarget hforward
    · rw [Command.program, if_neg hforward] at hrun
      cases hrun
      rw [hnone]
      refine .pass ⟨by simp [htarget], ?_⟩
      intro target' htarget'
      rw [htarget] at htarget'
      cases htarget'
      exact Int.not_lt.mp hforward
  | stop hstop =>
    cases hrun
    exact .stop hstop
  | gesture hplain hgesture =>
    obtain ⟨htransfer, -, hhalt⟩ := hgesture.run_fits env s
    rw [hrun] at htransfer hhalt
    cases halt with
    | returned =>
      rw [htransfer, hnone]
      exact .pass hplain.handsOver
    | failed cause => exact .refused _ _ hplain (.inr ⟨cause, rfl⟩)
    | crashed => exact .refused _ _ hplain (.inl rfl)
    | asleep wake rest =>
      obtain ⟨-, hcut, hfull⟩ := hhalt
      rw [htransfer, hnone]
      refine .sleep wake rest hplain ?_
      intro full
      cases full with
      | true => exact hfull
      | false => exact hcut ▸ .done

/-! ### A run -/

/-- The instruction at an index is in progress. -/
structure Script.InProgress (script : Script) (part : List (Nat × Event)) (index : Nat)
    (i : Instruction) : Prop where
  here : script.instructions[index]? = some i
  last : inProgress? part = some (i.line, i.name)

/-- Where a run stands goes with where control is. -/
def Script.Placed (script : Script) (part : List (Nat × Event)) : Point → Prop
  | .resting .fresh => inProgress? part = none
  | .resting (.beforeStart _) => inProgress? part = none
  | .resting (.inCommand index _ rest) => ∃ i, script.InProgress part index i ∧
      i.command.IsPlain ∧ ∀ full, Gesture (rest full)
  | .resting (.afterJump line) => script.control? part = some (script.indexForLine line)
  | .resting (.betweenLines _ next) => script.control? part = some next
  | .delaying next => script.control? part = some next
  | .before index => script.control? part = some index
  | .inside index p => ∃ i, script.InProgress part index i ∧ Left i p
  | .ended .completed => ∃ index, script.control? part = some index ∧ script.length ≤ index
  | .ended .stopped => True
  | .ended (.failed _) => ∃ index i, script.InProgress part index i ∧ i.command.IsPlain

/-- Events with which no instruction begins leave control where it is. -/
theorem Script.Placed.append {script : Script} {part new : List (Nat × Event)} {point : Point}
    (h : script.Placed part point) (hnew : ∀ entry ∈ new, entry.2.begun? = none) :
    script.Placed (part ++ new) point := by
  have hlast : inProgress? (part ++ new) = inProgress? part := Engine.inProgress?_append hnew
  have hcontrol : script.control? (part ++ new) = script.control? part :=
    Script.control?_append hnew
  have hprogress {index : Nat} {i : Instruction} (hi : script.InProgress part index i) :
      script.InProgress (part ++ new) index i := ⟨hi.here, hlast.trans hi.last⟩
  match point with
  | .resting .fresh => exact hlast.trans h
  | .resting (.beforeStart _) => exact hlast.trans h
  | .resting (.inCommand _ _ _) =>
    obtain ⟨i, hi, hrest⟩ := h
    exact ⟨i, hprogress hi, hrest⟩
  | .resting (.afterJump _) => exact hcontrol.trans h
  | .resting (.betweenLines _ _) => exact hcontrol.trans h
  | .delaying _ => exact hcontrol.trans h
  | .before _ => exact hcontrol.trans h
  | .inside _ _ =>
    obtain ⟨i, hi, hleft⟩ := h
    exact ⟨i, hprogress hi, hleft⟩
  | .ended .completed =>
    obtain ⟨index, hindex, hend⟩ := h
    exact ⟨index, hcontrol.trans hindex, hend⟩
  | .ended .stopped => trivial
  | .ended (.failed _) =>
    obtain ⟨index, i, hi, hplain⟩ := h
    exact ⟨index, i, hprogress hi, hplain⟩

namespace Course

variable (r : Course) (earlier : List (Nat × Event))

/-- The instructions of a run have begun in order, and the run stands where control is. -/
def Controlled (state : State) : Prop :=
  ∃ part, state.stage.history.reverse = earlier ++ part ∧ r.script.InOrder part ∧
    r.script.Placed part state.point

variable {r earlier} {state state' : State}

/-- An event with which no instruction begins leaves control where it is. -/
theorem Controlled.record {s : Stage} {point : Point} (h : r.Controlled earlier ⟨s, point⟩)
    {event : Event} (hevent : event.begun? = none) :
    r.Controlled earlier ⟨s.record event, point⟩ := by
  obtain ⟨part, hpart, horder, hplaced⟩ := h
  have hnew : ∀ entry ∈ [(s.now, event)], entry.2.begun? = none := by simpa using hevent
  exact ⟨part ++ [(s.now, event)], Stage.added_record hpart event, horder.append hnew,
    hplaced.append hnew⟩

/-- Inside an instruction the program that is left comes to a halt. -/
theorem Controlled.run {s s' : Stage} {index : Nat} {p : Program} {halt : Halt}
    (h : r.Controlled earlier ⟨s, .inside index p⟩) (hnone : s.transfer = none)
    (hrun : p.run r.env s = (s', halt)) :
    ∃ part i, s'.history.reverse = earlier ++ part ∧ r.script.InOrder part ∧
      r.script.InProgress part index i ∧ Leaves i s'.transfer halt := by
  obtain ⟨part, hpart, horder, i, hi, hleft⟩ := h
  obtain ⟨new, hnew, hquiet⟩ := Program.run_begins_nothing hrun
  refine ⟨part ++ new, i, ?_, horder.append hquiet,
    ⟨hi.here, (Engine.inProgress?_append hquiet).trans hi.last⟩, hleft.run hnone hrun⟩
  rw [hnew, hpart, List.append_assoc]

/-- The instruction that is next may begin. -/
theorem Controlled.begin {s : Stage} {index : Nat} {i : Instruction}
    (h : r.Controlled earlier ⟨s, .before index⟩) (hi : r.script.instructions[index]? = some i)
    (hbuiltin : i.command.IsBuiltin) :
    r.Controlled earlier ⟨s.beginInstruction index i, .inside index i.command.program⟩ := by
  obtain ⟨part, hpart, horder, hcontrol⟩ := h
  have hnext : r.script.next? part = some i := by
    rw [Script.next?, hcontrol]
    exact hi
  have hbegun : (s.beginInstruction index i).history.reverse =
      earlier ++ (part ++ [(s.now, .executing i.line i.name)]) :=
    Stage.added_record hpart (.executing i.line i.name)
  exact ⟨_, hbegun, horder.begin hnext s.now, i,
    ⟨hi, inProgress?_of_begun part s.now i.line i.name (by simp)⟩, Left.program hbuiltin⟩

/-- Every step of the worker keeps the order. -/
theorem Controlled.work {first : Nat} (hscript : r.script.IsBuiltin)
    (hsorted : r.script.instructions.Pairwise fun a b => a.line < b.line)
    (hfits : r.Fits first state) (h : r.Controlled earlier state) (hwork : r.Work state state') :
    r.Controlled earlier state' := by
  cases hwork with
  | skipStart s | wakeToStart s =>
    obtain ⟨part, hpart, horder, hlast⟩ := h
    have hnone : inProgress? part = none := hlast
    exact ⟨part, hpart, horder, by rw [Script.Placed, Script.control?, hnone]⟩
  | delayStart => exact h
  | resume s index wake rest i =>
    obtain ⟨part, hpart, horder, i, hi, hplain, hrest⟩ := h
    exact ⟨part, hpart, horder, i, hi, .gesture hplain (hrest _)⟩
  | land | landBehind | wakeToNext | skipDelay | delay => exact h
  | halt =>
    obtain ⟨part, hpart, horder, -⟩ := h
    exact ⟨part, hpart, horder, trivial⟩
  | finish s index hgoes hnone =>
    obtain ⟨part, hpart, horder, hcontrol⟩ := h
    exact ⟨part, hpart, horder, index, hcontrol, List.getElem?_eq_none_iff.mp hnone⟩
  | begin s index i hgoes hi =>
    exact h.begin hi (hscript i (List.mem_of_getElem? hi))
  | pause s s' index i p wake rest hi hrun =>
    obtain ⟨part, i, hpart, horder, hprogress, hleaves⟩ := h.run hfits.point.1 hrun
    generalize s'.transfer = transfer at hleaves
    cases hleaves with
    | sleep _ _ hplain hrest => exact ⟨part, hpart, horder, i, hprogress, hplain, hrest⟩
    | refused _ _ _ hhalt => simp at hhalt
  | fail s s' index i p cause hi hrun =>
    obtain ⟨part, i, hpart, horder, hprogress, hleaves⟩ := h.run hfits.point.1 hrun
    generalize s'.transfer = transfer at hleaves
    cases hleaves with
    | refused _ _ hplain => exact ⟨part, hpart, horder, index, i, hprogress, hplain⟩
  | crash s s' index i p hi hrun =>
    obtain ⟨part, i, hpart, horder, hprogress, hleaves⟩ := h.run hfits.point.1 hrun
    generalize s'.transfer = transfer at hleaves
    cases hleaves with
    | refused _ _ hplain => exact ⟨part, hpart, horder, index, i, hprogress, hplain⟩
  | jump s s' index i p target hi hrun htransfer =>
    obtain ⟨part, i, hpart, horder, hprogress, hleaves⟩ := h.run hfits.point.1 hrun
    have hjumped : r.Controlled earlier ⟨s', .resting (.afterJump target)⟩ := by
      rw [htransfer] at hleaves
      cases hleaves with
      | jump target' hcall hforward =>
        refine ⟨part, hpart, horder, ?_⟩
        rw [Script.Placed, Script.control?_of_inProgress? hsorted hprogress.here hprogress.last,
          Script.successor?_jump hprogress.here hcall hforward]
      | refused _ _ _ hhalt => simp at hhalt
    exact hjumped.record rfl
  | stop s s' index i p hi hrun =>
    obtain ⟨part, i, hpart, horder, -, -⟩ := h.run hfits.point.1 hrun
    exact ⟨part, hpart, horder, trivial⟩
  | pass s s' index i p hi hrun htransfer | passLast s s' index i p hi hrun htransfer =>
    obtain ⟨part, i, hpart, horder, hprogress, hleaves⟩ := h.run hfits.point.1 hrun
    rw [htransfer] at hleaves
    cases hleaves with
    | pass hpass =>
      refine ⟨part, hpart, horder, ?_⟩
      rw [Script.Placed, Script.control?_of_inProgress? hsorted hprogress.here hprogress.last,
        Script.successor?_pass hprogress.here hpass]
    | refused _ _ _ hhalt => simp at hhalt

/-- Every step of a run keeps the order. -/
theorem Controlled.step {first : Nat} (hscript : r.script.IsBuiltin)
    (hsorted : r.script.instructions.Pairwise fun a b => a.line < b.line)
    (hfits : r.Fits first state) (h : r.Controlled earlier state) (hstep : r.Step state state') :
    r.Controlled earlier state' := by
  cases hstep with
  | work _ _ hwork => exact h.work hscript hsorted hfits hwork
  | tick => exact h
  | turnAway s phase event hevent =>
    apply h.record
    rcases hevent with rfl | rfl <;> rfl
  | cancel s phase => exact h.record rfl

/-- Wherever a run of built-in commands stands, its instructions have begun in order. -/
theorem Reaches.controlled (hscript : r.script.IsBuiltin)
    (hsorted : r.script.instructions.Pairwise fun a b => a.line < b.line) {s : Stage}
    (h : r.Reaches ⟨s, .resting .fresh⟩ state) : r.Controlled s.history.reverse state := by
  induction h with
  | refl => exact ⟨[], (List.append_nil _).symm, .nil, rfl⟩
  | tail hreaches hstep ih =>
    exact ih.step hscript hsorted (Reaches.fits hscript hreaches) hstep

/-- Where a run is seen, its instructions have begun in order, and the run stands where control
is. -/
theorem Seen.controlled (hscript : r.script.IsBuiltin)
    (hsorted : r.script.instructions.Pairwise fun a b => a.line < b.line) {started e : Engine}
    {part : List (Nat × Event)} (h : r.Seen started e state part) :
    r.script.InOrder part ∧ r.script.Placed part state.point := by
  obtain ⟨part', hpart', hcontrolled⟩ := Reaches.controlled hscript hsorted h.reaches
  obtain rfl : part = part' := List.append_cancel_left (h.history.symm.trans hpart')
  exact hcontrolled

end Course

end InputScript
