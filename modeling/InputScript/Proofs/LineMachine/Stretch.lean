import InputScript.Proofs.Engine.Stretch
import InputScript.Proofs.LineMachine

/-!
# `InputScript.Proofs.LineMachine.Stretch`: a stretch of the worker does lines of the machine

The worker keeps an index into the instructions, the machine a line in the text. They go
together (`Boundary`) where an instruction is about to begin: the index is the one for the
line, and the time is the one at which the machine executes the line. Where the worker is
suspended, `Tracks` says how far the machine has come and how much of the present line is
left; a rank gets smaller while the machine waits for the worker.

* `run_of_plays`: a program plays its actions, up to a pause that lasts.
* `lands_directs`, `lands_played`: from a boundary the worker executes one instruction.
* `lands_runFrom`: from a boundary the worker does one line after the other.
* `lands_poll`: a stretch takes the worker from a place that tracks the machine to another
  one, or to the end that the machine has as well.
-/

set_option autoImplicit false

namespace InputScript

/-- Whether an event belongs to the trace of a run: an instruction began, or an effect was
performed. -/
def Event.isTraced : Event → Bool
  | .executing .. => true
  | .performed _ => true
  | _ => false

/-- The instructions that began and the effects that were performed, among events. -/
def traced (events : List (Nat × Event)) : List (Nat × Event) :=
  events.filter fun entry => entry.2.isTraced

/-- The trace that a stage has seen, the earliest first. -/
def Stage.trace (s : Stage) : List (Nat × Event) :=
  traced s.history.reverse

/-- One more event is one more entry of the trace, if it belongs there. -/
theorem Stage.trace_record (s : Stage) (event : Event) :
    (s.record event).trace = s.trace ++ traced [(s.now, event)] := by
  rw [trace, record, List.reverse_cons, traced, List.filter_append]
  rfl

namespace LineMachine

open Program (Plays)

/-! ### Playing a program -/

/-- A stage comes from another by effects that take no time. -/
structure Extends (s : Stage) (effects : List (Nat × Event)) (s' : Stage) : Prop where
  now : s'.now = s.now
  cancelled : s'.cancelled = s.cancelled
  transfer : s'.transfer = s.transfer
  trace : s'.trace = s.trace ++ effects

/-- What the halt of a program says about the actions that it had to play: they are over, or
it sleeps and the rest is left. -/
def HaltsAfter (timer : Timer) (s : Stage) (actions : List Action) (effects : List (Nat × Event)) :
    Halt → Prop
  | .returned => Action.play timer s.now actions = (s.now, effects)
  | .asleep wake rest => ∃ left, left.length < actions.length ∧ Plays (rest true) left ∧
    s.now ≤ wake ∧ Action.play timer s.now actions =
      ((Action.play timer wake left).1, effects ++ (Action.play timer wake left).2)
  | _ => False

variable {timer : Timer}

/-- An empty pause before the actions takes no time. -/
theorem HaltsAfter.skip {s : Stage} {rest : List Action} {effects : List (Nat × Event)}
    {halt : Halt} {span : Span} (hempty : span.isZero = true)
    (h : HaltsAfter timer s rest effects halt) :
    HaltsAfter timer s (.sleep span :: rest) effects halt := by
  have hnone : timer.wait span = 0 := (timer.wait_eq_zero_iff span).mpr hempty
  have hplay : Action.play timer s.now (.sleep span :: rest) = Action.play timer s.now rest := by
    rw [Action.play, hnone]
    rfl
  cases halt with
  | returned => exact hplay.trans h
  | asleep wake next =>
    obtain ⟨left, hlength, hplays, hlater, heffects⟩ := h
    exact ⟨left, Nat.lt_succ_of_lt hlength, hplays, hlater, hplay.trans heffects⟩
  | failed cause => exact h.elim
  | crashed => exact h.elim

/-- An effect before the actions is the first of the effects. -/
theorem HaltsAfter.perform {s s' : Stage} {rest : List Action} {effects : List (Nat × Event)}
    {halt : Halt} (effect : Effect) (hnow : s'.now = s.now)
    (h : HaltsAfter timer s' rest effects halt) :
    HaltsAfter timer s (.perform effect :: rest) ((s.now, .performed effect) :: effects) halt := by
  cases halt with
  | returned =>
    have hplay : Action.play timer s.now rest = (s.now, effects) := hnow ▸ h
    show Action.play timer s.now (.perform effect :: rest) = _
    rw [Action.play, hplay]
  | asleep wake next =>
    obtain ⟨left, hlength, hplays, hlater, hplay⟩ := h
    refine ⟨left, Nat.lt_succ_of_lt hlength, hplays, hnow ▸ hlater, ?_⟩
    rw [Action.play, ← hnow, hplay]
    rfl
  | failed cause => exact h.elim
  | crashed => exact h.elim

variable {env : Surroundings}
  (hdevice : ∀ call effect, env.device call effect = .done)

include hdevice

/-- A program plays its actions, up to a pause that lasts. -/
theorem run_of_plays {p : Program} {actions : List Action} (h : Plays p actions) {s : Stage}
    (hgoes : s.cancelled = false) :
    ∃ effects, Extends s effects (p.run env s).1 ∧
      HaltsAfter env.timer s actions effects (p.run env s).2 := by
  induction h generalizing s with
  | done => exact ⟨[], ⟨rfl, rfl, rfl, by simp [Program.run]⟩, rfl⟩
  | @perform next rest effect _ ih =>
    -- The device performs every effect, so the program goes on after it.
    rw [Program.run_call_of_done (hdevice _ effect)]
    obtain ⟨effects, hextends, hhalts⟩ :=
      ih (s := { s with calls := s.calls + 1 }.record (.performed effect)) hgoes
    refine ⟨(s.now, .performed effect) :: effects, ⟨hextends.now, hextends.cancelled,
      hextends.transfer, ?_⟩, hhalts.perform effect rfl⟩
    rw [hextends.trace, Stage.trace_record, List.append_assoc]
    rfl
  | @pause next rest span hnext ih =>
    rw [Program.run]
    have hsleep := Sleep.begins env.timer s.cancelled span s.now
    generalize Sleep.begin env.timer s.cancelled span s.now = sleep at hsleep ⊢
    cases hsleep with
    | cut hcancelled =>
      rw [hgoes] at hcancelled
      cases hcancelled
    | skipped _ hempty =>
      obtain ⟨effects, hextends, hhalts⟩ := ih hgoes
      exact ⟨effects, hextends, hhalts.skip hempty⟩
    | lasts _ hlong =>
      refine ⟨[], ⟨rfl, rfl, rfl, by simp⟩, rest, Nat.lt_succ_self _, hnext,
        Nat.le_add_right _ _, ?_⟩
      rw [Action.play]
      rfl
  | @skip p rest span hempty _ ih =>
    obtain ⟨effects, hextends, hhalts⟩ := ih hgoes
    exact ⟨effects, hextends, hhalts.skip hempty⟩

omit hdevice

/-! ### Where the worker and the machine stand -/

/-- A run of a compiled script without a random pause, on a device that performs everything. -/
structure Setting where
  lines : List String
  script : Script
  compiled : Catalog.builtin.compile lines = .ok script
  fixed : script.IsFixed
  lineDelay : Span
  startDelay : Span
  env : Surroundings
  device : ∀ call effect, env.device call effect = .done
  /-- The time at which the start delay is over. -/
  time : Nat
  /-- What was traced before the run began. -/
  earlier : List (Nat × Event)

namespace Setting

variable (r : Setting)

/-- The machine that the run is compared with, after a number of steps. -/
def machine (n : Nat) : Config :=
  run r.env.timer r.lines r.lineDelay r.time n

/-- The worker has done all that the machine has, which has not ended. -/
structure Level (n : Nat) (s : Stage) : Prop where
  goes : s.cancelled = false
  unended : (r.machine n).outcome = none
  trace : s.trace = r.earlier ++ (r.machine n).trace

/-- The instruction at an index is about to begin where the machine stands. Behind the last
instruction no line delay is taken. -/
structure Boundary (n index : Nat) (s : Stage) : Prop extends Level r n s where
  selects : index = r.script.indexForLine (r.machine n).line
  now : s.now = if index < r.script.length then (r.machine n).due r.env.timer r.lineDelay
    else (r.machine n).now

/-- How many actions the next line of the machine has. -/
def size (n : Nat) : Nat :=
  match fetch r.lines (r.machine n).line with
  | none => 0
  | some i => i.command.actions.length

/-- Where a worker is suspended while the machine stands before a line, with a rank that gets
smaller while the machine waits. Inside an instruction, the actions that are left lead to the
next state of the machine. -/
def Tracks (n rank : Nat) (s : Stage) : Phase → Prop
  | .fresh =>
    n = 0 ∧ Level r n s ∧ s.now + r.env.timer.wait r.startDelay = r.time ∧ rank = r.size n + 2
  | .beforeStart wake => n = 0 ∧ Level r n s ∧ s.now ≤ wake ∧ wake = r.time ∧
    rank = r.size n + 1
  | .afterJump line => Level r n s ∧ (r.machine n).line = line ∧ (r.machine n).begun = true ∧
    s.now = (r.machine n).now ∧ rank = r.size n + 2
  | .betweenLines wake next => Level r n s ∧ next = r.script.indexForLine (r.machine n).line ∧
    next < r.script.length ∧ s.now ≤ wake ∧ wake = (r.machine n).due r.env.timer r.lineDelay ∧
    rank = r.size n + 1
  | .inCommand index wake rest => s.cancelled = false ∧ s.transfer = none ∧ s.now ≤ wake ∧
    (r.machine n).outcome = none ∧ r.earlier ++ (r.machine n).trace <+: s.trace ∧
    ∃ i left trace, r.script.instructions[index]? = some i ∧ Plays (rest true) left ∧
      rank = left.length ∧
      r.machine (n + 1) = ⟨i.line + 1, (Action.play r.env.timer wake left).1, true, trace, none⟩ ∧
      s.trace ++ (Action.play r.env.timer wake left).2 = r.earlier ++ trace

/-- The worker and the machine have ended alike, the machine in its next step. -/
structure Ends (n : Nat) (s : Stage) (outcome : Outcome) : Prop where
  unended : (r.machine n).outcome = none
  outcome : (r.machine (n + 1)).outcome = some outcome
  now : (r.machine (n + 1)).now = s.now
  trace : s.trace = r.earlier ++ (r.machine (n + 1)).trace

/-- What a stretch may lead to from a place that tracks the machine: a place at which the
machine has gone on or the rank is smaller, or the common end. -/
def Lands (n rank : Nat) (result : Stage × Progress) : Prop :=
  match result.2 with
  | .suspended phase => ∃ m rank', r.Tracks m rank' result.1 phase ∧
    (n < m ∨ n = m ∧ rank' < rank)
  | .ended outcome => ∃ m, n ≤ m ∧ r.Ends m result.1 outcome
  | .crashed => False

/-- What a later place leads to, an earlier one leads to as well. -/
theorem Lands.mono {n m rank rank' : Nat} {result : Stage × Progress} {r : Setting}
    (h : r.Lands m rank' result) (hle : n < m ∨ n = m ∧ rank' ≤ rank) :
    r.Lands n rank result := by
  rw [Lands] at h ⊢
  split at h
  · obtain ⟨k, last, htracks, hless⟩ := h
    exact ⟨k, last, htracks, by omega⟩
  · obtain ⟨k, hk, hends⟩ := h
    exact ⟨k, by omega, hends⟩
  · exact h

variable {r : Setting}

/-- The lines of the instructions increase. -/
theorem sorted (r : Setting) :
    r.script.instructions.Pairwise fun a b => a.line < b.line :=
  Script.IsCompiled.sorted ⟨r.lines, r.compiled⟩

/-- The commands of the script are built in. -/
theorem isBuiltin (r : Setting) : r.script.IsBuiltin :=
  Script.IsCompiled.isBuiltin ⟨r.lines, r.compiled⟩

/-- What the machine does next, where the instruction at an index is about to begin. -/
theorem fetch_of_boundary {n index : Nat} {s : Stage} (h : r.Boundary n index s) :
    fetch r.lines (r.machine n).line = r.script.instructions[index]? := by
  rw [fetch_eq r.compiled, ← h.selects]

/-- Taking the line delay before the next line, if there is one, leads to that line. -/
theorem lands_delayLine {n index : Nat} {s : Stage} (hlevel : r.Level n s)
    (hselects : index = r.script.indexForLine (r.machine n).line)
    (hlt : index < r.script.length) (hbegun : (r.machine n).begun = true)
    (hnow : s.now = (r.machine n).now) {goOn : Stage → Stage × Progress}
    (hgoOn : r.Boundary n index s → r.Lands n (r.size n + 1) (goOn s)) :
    r.Lands n (r.size n + 2) (Worker.delayLine r.env.timer r.lineDelay index goOn s) := by
  have hdue : (r.machine n).due r.env.timer r.lineDelay = s.now + r.env.timer.wait r.lineDelay := by
    rw [Config.due, if_pos hbegun, hnow]
  rw [Worker.delayLine]
  have hsleep := Sleep.begins r.env.timer s.cancelled r.lineDelay s.now
  generalize Sleep.begin r.env.timer s.cancelled r.lineDelay s.now = sleep at hsleep ⊢
  cases hsleep with
  | cut hcancelled =>
    rw [hlevel.goes] at hcancelled
    cases hcancelled
  | skipped _ hempty =>
    -- The machine waits for the delay too, but it takes no time.
    have hnone : r.env.timer.wait r.lineDelay = 0 := (r.env.timer.wait_eq_zero_iff _).mpr hempty
    refine (hgoOn ⟨hlevel, hselects, ?_⟩).mono (.inr ⟨rfl, Nat.le_succ _⟩)
    rw [if_pos hlt, hdue, hnone]
    rfl
  | lasts _ hlong =>
    refine ⟨n, _, ⟨hlevel, hselects, hlt, Nat.le_add_right _ _, hdue.symm, rfl⟩, .inr ⟨rfl, ?_⟩⟩
    exact Nat.lt_succ_self _

/-- An instruction that has returned hands over to the next line. -/
theorem lands_returned {n index : Nat} {i : Instruction} {s : Stage}
    (hi : r.script.instructions[index]? = some i) (hlevel : r.Level n s)
    (htransfer : s.transfer = none) (hline : (r.machine n).line = i.line + 1)
    (hbegun : (r.machine n).begun = true) (hnow : s.now = (r.machine n).now)
    {goOn : Stage → Stage × Progress}
    (hgoOn : r.Boundary n (index + 1) s → r.Lands n (r.size n + 1) (goOn s)) :
    r.Lands n (r.size n + 2) (Worker.settle r.env.timer r.lineDelay index i
      (r.script.instructions.drop (index + 1)).isEmpty goOn s .returned) := by
  have hselects : index + 1 = r.script.indexForLine (r.machine n).line := by
    rw [hline]
    exact (Script.indexForLine_line_succ r.sorted hi).symm
  rw [Worker.settle, htransfer]
  dsimp only
  by_cases hlast : (r.script.instructions.drop (index + 1)).isEmpty = true
  · -- Nothing comes after the last instruction, not even a line delay.
    rw [if_pos hlast]
    have hend : ¬ index + 1 < r.script.length := by
      rw [List.isEmpty_iff, List.drop_eq_nil_iff] at hlast
      exact Nat.not_lt.mpr hlast
    refine (hgoOn ⟨hlevel, hselects, ?_⟩).mono (.inr ⟨rfl, Nat.le_succ _⟩)
    rw [if_neg hend, hnow]
  · rw [if_neg hlast]
    have hlt : index + 1 < r.script.length := by
      rw [List.isEmpty_iff, List.drop_eq_nil_iff] at hlast
      exact Nat.not_le.mp hlast
    exact lands_delayLine hlevel hselects hlt hbegun hnow hgoOn

/-- Playing what is left of an instruction leads to the next line, or to a pause in it. -/
theorem lands_settle {n rank index : Nat} {i : Instruction} {p : Program} {left : List Action}
    {s : Stage} {trace : List (Nat × Event)} (hi : r.script.instructions[index]? = some i)
    (hplays : Plays p left) (hgoes : s.cancelled = false) (htransfer : s.transfer = none)
    (hunended : (r.machine n).outcome = none)
    (hbefore : r.earlier ++ (r.machine n).trace <+: s.trace)
    (hnext : r.machine (n + 1) =
      ⟨i.line + 1, (Action.play r.env.timer s.now left).1, true, trace, none⟩)
    (htrace : s.trace ++ (Action.play r.env.timer s.now left).2 = r.earlier ++ trace)
    (hrank : left.length ≤ rank) {goOn : Stage → Stage × Progress}
    (hgoOn : ∀ s', r.Boundary (n + 1) (index + 1) s' →
      r.Lands (n + 1) (r.size (n + 1) + 1) (goOn s')) :
    r.Lands n rank (Worker.settle r.env.timer r.lineDelay index i
      (r.script.instructions.drop (index + 1)).isEmpty goOn (p.run r.env s).1
      (p.run r.env s).2) := by
  obtain ⟨effects, hextends, hhalts⟩ := run_of_plays r.device hplays hgoes
  generalize p.run r.env s = result at hextends hhalts ⊢
  obtain ⟨after, halt⟩ := result
  cases halt with
  | returned =>
    have hplay : Action.play r.env.timer s.now left = (s.now, effects) := hhalts
    rw [hplay] at hnext htrace
    -- The machine is at the line behind the instruction, and the time is the same.
    have hlevel : r.Level (n + 1) after := by
      refine ⟨hextends.cancelled.trans hgoes, by rw [hnext], ?_⟩
      rw [hextends.trace, htrace, hnext]
    have hnow : after.now = (r.machine (n + 1)).now := by rw [hextends.now, hnext]
    have hreturned := lands_returned hi hlevel (hextends.transfer.trans htransfer)
      (by rw [hnext]) (by rw [hnext]) hnow (hgoOn after)
    exact hreturned.mono (.inl (Nat.lt_succ_self n))
  | asleep wake rest =>
    obtain ⟨left', hlength, hplays', hlater, hplay⟩ := hhalts
    -- It sleeps in the instruction, and fewer actions are left than before.
    have hlater : after.now ≤ wake := Nat.le_trans (Nat.le_of_eq hextends.now) hlater
    have hseen : after.trace = s.trace ++ effects := hextends.trace
    show r.Lands n rank (after, .suspended (.inCommand index wake rest))
    refine ⟨n, left'.length, ?_, .inr ⟨rfl, by omega⟩⟩
    refine ⟨hextends.cancelled.trans hgoes, hextends.transfer.trans htransfer, hlater, hunended,
      ?_, i, left', trace, hi, hplays', rfl, ?_, ?_⟩
    · show _ <+: after.trace
      rw [hseen]
      exact hbefore.trans (List.prefix_append _ _)
    · rw [hnext, hplay]
    · show after.trace ++ _ = _
      rw [hseen, List.append_assoc, ← htrace, hplay]
  | failed cause => exact hhalts.elim
  | crashed => exact hhalts.elim

/-- A run of the machine that has come to the end of the text is completed. -/
theorem ends_of_fetch {n : Nat} {s : Stage} (hlevel : r.Level n s)
    (hnone : fetch r.lines (r.machine n).line = none) (hnow : s.now = (r.machine n).now) :
    r.Ends n s .completed := by
  have hnext : r.machine (n + 1) = { r.machine n with outcome := some .completed } := by
    show step r.env.timer r.lines r.lineDelay (r.machine n) = _
    rw [step, hlevel.unended]
    dsimp only
    rw [hnone]
  exact ⟨hlevel.unended, by rw [hnext], by rw [hnext, hnow], by rw [hnext, hlevel.trace]⟩

/-- The machine executes the instruction that is about to begin. -/
theorem machine_succ {n index : Nat} {s : Stage} {i : Instruction} (h : r.Boundary n index s)
    (hi : r.script.instructions[index]? = some i) :
    r.machine (n + 1) = (r.machine n).execute r.env.timer s.now i := by
  have hlt : index < r.script.length := (List.getElem?_eq_some_iff.mp hi).1
  have hdue : s.now = (r.machine n).due r.env.timer r.lineDelay := by rw [h.now, if_pos hlt]
  show step r.env.timer r.lines r.lineDelay (r.machine n) = _
  rw [step, h.unended]
  dsimp only
  rw [fetch_of_boundary h, hi, hdue]

/-- The first thing that is traced of an instruction is its beginning. -/
theorem trace_begin {n : Nat} {s : Stage} (h : r.Level n s) (index : Nat) (i : Instruction) :
    (s.beginInstruction index i).trace =
      r.earlier ++ ((r.machine n).trace ++ [(s.now, .executing i.line i.name)]) := by
  show (s.record (.executing i.line i.name)).trace = _
  rw [Stage.trace_record, h.trace, List.append_assoc]
  rfl

/-- A jump leads to its line and a stop to the end. Neither takes time. -/
theorem lands_directs {n rank index : Nat} {i : Instruction} {s : Stage}
    (h : r.Boundary n index s) (hi : r.script.instructions[index]? = some i)
    (hdirects : i.command.Directs) (isLast : Bool) (goOn : Stage → Stage × Progress) :
    r.Lands n rank (Worker.settle r.env.timer r.lineDelay index i isLast goOn
      (i.command.program.run r.env (s.beginInstruction index i)).1
      (i.command.program.run r.env (s.beginInstruction index i)).2) := by
  have hnext := machine_succ h hi
  have hbegun := trace_begin h.toLevel index i
  cases hcommand : i.command with
  | call target =>
    rw [hcommand] at hdirects
    have hforward : 0 < target := hdirects
    have hmachine : r.machine (n + 1) = ⟨target.toNat, s.now, true,
        (r.machine n).trace ++ [(s.now, .executing i.line i.name)], none⟩ := by
      rw [hnext, Config.execute, hcommand]
      exact if_pos hforward
    have hprogram : (Command.call target).program = .jump target.toNat .done :=
      if_pos hforward
    rw [hprogram]
    show r.Lands n rank (_, .suspended (.afterJump target.toNat))
    refine ⟨n + 1, r.size (n + 1) + 2, ⟨⟨h.goes, ?_, ?_⟩, ?_, ?_, ?_, rfl⟩,
      .inl (Nat.lt_succ_self n)⟩
    · rw [hmachine]
    · -- The jump itself is no part of the trace.
      show Stage.trace (Stage.record _ (.jumped i.line target.toNat)) = _
      rw [Stage.trace_record, hmachine]
      exact (List.append_nil _).trans hbegun
    · rw [hmachine]
    · rw [hmachine]
    · rw [hmachine]
      rfl
  | stop =>
    have hmachine : r.machine (n + 1) = ⟨i.line + 1, s.now, true,
        (r.machine n).trace ++ [(s.now, .executing i.line i.name)], some .stopped⟩ := by
      rw [hnext, Config.execute, hcommand]
      rfl
    show r.Lands n rank (_, .ended .stopped)
    refine ⟨n, Nat.le_refl n, h.unended, ?_, ?_, ?_⟩
    · rw [hmachine]
    · rw [hmachine]
      rfl
    · rw [hmachine]
      exact hbegun
  | label | wait | keyDown | keyUp | keyPress | typeText | mouseMove | mouseDown | mouseUp
  | mouseClick | mouseWheel | custom =>
    rw [hcommand] at hdirects
    exact hdirects.elim

/-- Any other instruction is played, and leads to the next line or to a pause in it. -/
theorem lands_played {n index : Nat} {i : Instruction} {s : Stage} (h : r.Boundary n index s)
    (hi : r.script.instructions[index]? = some i) (hdirects : ¬ i.command.Directs)
    {goOn : Stage → Stage × Progress}
    (hgoOn : ∀ s', r.Boundary (n + 1) (index + 1) s' →
      r.Lands (n + 1) (r.size (n + 1) + 1) (goOn s')) :
    r.Lands n (r.size n + 1) (Worker.settle r.env.timer r.lineDelay index i
      (r.script.instructions.drop (index + 1)).isEmpty goOn
      (i.command.program.run r.env (s.beginInstruction index i)).1
      (i.command.program.run r.env (s.beginInstruction index i)).2) := by
  have hmem : i ∈ r.script.instructions := List.mem_of_getElem? hi
  have hplays := Command.plays_program (r.isBuiltin i hmem) (r.fixed i hmem) hdirects
  have hbegun := trace_begin h.toLevel index i
  have hnext := machine_succ h hi
  rw [execute_of_not_directs _ _ hdirects] at hnext
  have hsize : r.size n = i.command.actions.length := by
    rw [size, fetch_of_boundary h, hi]
  refine lands_settle (s := s.beginInstruction index i) hi hplays h.goes rfl h.unended ?_
    hnext ?_ ?_ hgoOn
  · rw [hbegun, ← List.append_assoc]
    exact List.prefix_append _ _
  · rw [hbegun]
    show _ ++ (Action.play r.env.timer s.now i.command.actions).2 = _
    simp only [List.append_assoc, List.singleton_append]
  · rw [hsize]
    exact Nat.le_succ _

/-- From a boundary the worker does one line after the other, up to a place at which it is
suspended or to the end. -/
theorem lands_runFrom {n index : Nat} {is : List Instruction} {s : Stage}
    (his : r.script.instructions.drop index = is) (h : r.Boundary n index s) :
    r.Lands n (r.size n + 1) (Worker.runFrom r.env r.lineDelay index is s) := by
  induction is generalizing n index s with
  | nil =>
    have hend : ¬ index < r.script.length := Nat.not_lt.mpr (List.drop_eq_nil_iff.mp his)
    have hnow : s.now = (r.machine n).now := by rw [h.now, if_neg hend]
    have hnone : fetch r.lines (r.machine n).line = none := by
      rw [fetch_of_boundary h, ← List.head?_drop, his, List.head?_nil]
    rw [Worker.runFrom, h.goes]
    exact ⟨n, Nat.le_refl n, ends_of_fetch h.toLevel hnone hnow⟩
  | cons i rest ih =>
    obtain ⟨hi, rfl⟩ := Script.drop_eq_cons_iff.mp his
    rw [Worker.runFrom, h.goes, if_neg (by simp)]
    by_cases hdirects : i.command.Directs
    · exact lands_directs h hi hdirects _ _
    · apply lands_played h hi hdirects
      intro s' hboundary
      exact ih rfl hboundary

/-- Instructions lie on lines from one on. -/
theorem line_pos (r : Setting) {i : Instruction} (hi : i ∈ r.script.instructions) :
    1 ≤ i.line :=
  (Catalog.line_bounds_of_compile r.compiled hi).1

/-- When the start delay is over, the first instruction is about to begin. -/
theorem boundary_start {s : Stage} (hlevel : r.Level 0 s) (hnow : s.now = r.time) :
    r.Boundary 0 0 s := by
  refine ⟨hlevel, ?_, ?_⟩
  · symm
    apply Script.indexForLine_eq (Nat.zero_le _)
    · simp
    · intro i hi
      exact r.line_pos (List.mem_of_getElem? hi)
  · rw [hnow]
    split <;> rfl

/-- A worker that sleeps and can go on has slept until its time. -/
theorem now_eq_of_ready {phase : Phase} {s : Stage} {wake : Nat}
    (hwake : phase.wake? = some wake) (hgoes : s.cancelled = false) (hlater : s.now ≤ wake)
    (hready : phase.isReady s.cancelled s.now = true) : s.now = wake := by
  rw [Phase.isReady, hwake, hgoes] at hready
  have hdue : wake ≤ s.now := by simpa using hready
  exact Nat.le_antisymm hlater hdue

/-- A stretch from a place that tracks the machine leads to another one, with the machine gone
on or the rank smaller, or to the end that the machine has as well. -/
theorem lands_poll {n rank : Nat} {s : Stage} {phase : Phase} (h : r.Tracks n rank s phase)
    (hready : phase.isReady s.cancelled s.now = true) :
    r.Lands n rank (Worker.poll ⟨r.script, r.lineDelay, phase⟩ r.env r.startDelay s) := by
  cases phase with
  | fresh =>
    obtain ⟨rfl, hlevel, hstart, rfl⟩ := h
    rw [Worker.poll]
    dsimp only
    have hsleep := Sleep.begins r.env.timer s.cancelled r.startDelay s.now
    generalize Sleep.begin r.env.timer s.cancelled r.startDelay s.now = sleep at hsleep ⊢
    cases hsleep with
    | cut hcancelled =>
      rw [hlevel.goes] at hcancelled
      cases hcancelled
    | skipped _ hempty =>
      have hnow : s.now = r.time := by
        rw [← hstart, (r.env.timer.wait_eq_zero_iff _).mpr hempty]
        rfl
      exact (lands_runFrom rfl (boundary_start hlevel hnow)).mono (.inr ⟨rfl, Nat.le_succ _⟩)
    | lasts _ hlong =>
      refine ⟨0, _, ⟨rfl, hlevel, Nat.le_add_right _ _, hstart, rfl⟩, .inr ⟨rfl, ?_⟩⟩
      exact Nat.lt_succ_self _
  | beforeStart wake =>
    obtain ⟨rfl, hlevel, hlater, hstart, rfl⟩ := h
    have hnow : s.now = wake := now_eq_of_ready rfl hlevel.goes hlater hready
    rw [Worker.poll]
    dsimp only
    rw [hlevel.goes, if_neg (by simp)]
    exact lands_runFrom rfl (boundary_start hlevel (hnow.trans hstart))
  | inCommand index wake rest =>
    obtain ⟨hgoes, htransfer, hlater, hunended, hbefore, i, left, trace, hi, hplays, rfl, hnext,
      htrace⟩ := h
    have hnow : s.now = wake := now_eq_of_ready rfl hgoes hlater hready
    rw [← hnow] at hnext htrace
    rw [Worker.poll]
    dsimp only
    -- The instruction is still there, with what follows it.
    rw [Worker.resume, Script.drop_eq_cons_iff.mpr ⟨hi, rfl⟩]
    dsimp only
    rw [hgoes, Sleep.isFull_of_goes]
    exact lands_settle hi hplays hgoes htransfer hunended hbefore hnext htrace (Nat.le_refl _)
      fun s' hboundary => lands_runFrom rfl hboundary
  | afterJump line =>
    obtain ⟨hlevel, rfl, hbegun, hnow, rfl⟩ := h
    rw [Worker.poll]
    dsimp only
    split
    · rename_i hlt
      exact lands_delayLine hlevel rfl hlt hbegun hnow fun hboundary =>
        lands_runFrom rfl hboundary
    · rename_i hend
      -- The jump led past the last instruction: no line delay is taken.
      have hboundary : r.Boundary n _ s := ⟨hlevel, rfl, by rw [if_neg hend, hnow]⟩
      exact (lands_runFrom rfl hboundary).mono (.inr ⟨rfl, Nat.le_succ _⟩)
  | betweenLines wake next =>
    obtain ⟨hlevel, hselects, hlt, hlater, hdue, rfl⟩ := h
    have hnow : s.now = wake := now_eq_of_ready rfl hlevel.goes hlater hready
    rw [Worker.poll]
    dsimp only
    rw [hlevel.goes, if_neg (by simp)]
    exact lands_runFrom rfl ⟨hlevel, hselects, by rw [if_pos hlt, hnow, hdue]⟩

end Setting

end LineMachine

end InputScript
