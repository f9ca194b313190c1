import InputScript.Proofs.Engine.Execution
import InputScript.Proofs.Engine.GivingWay
import InputScript.Proofs.LineMachine.Typing
import Mathlib.Algebra.GroupWithZero.Nat

/-!
# `InputScript.Proofs.LineMachine.StraightLine`: when everything happens in a script without jumps

In a script that neither jumps nor stops, and that leaves nothing to chance, it is known beforehand
when each instruction begins: at the start, and then for each instruction before it a line delay
and its own pauses later. The pauses of an instruction are that of a wait, or those between the
characters of a text (`Command.pause`). Behind the last instruction there is no line delay any more.

The line machine keeps to this timeline (`Setting.machine_straight`), and so does a run of the
engine, which ends with the last instruction. Each pause takes as long as the timer says; an exact
one rounds each of them up to whole milliseconds for itself. If there is no pause at all, the run is
over after its first stretch: `LineMachine.runFrom_ends` says that no instruction falls asleep then.

* `play_actions_time`: how long a command takes.
* `Setting.machine_straight`: where the line machine stands after some instructions.
* `traces_straight`: so does a run.
* `straight_line_timing`: the timeline of a run with an exact timer.
-/

set_option autoImplicit false

namespace InputScript

open Catalog

/-! ### The timeline of a script -/

/-- The milliseconds for which a command pauses by itself. A text is typed with a pause between any
two characters. -/
def Command.pause (timer : Timer) : Command → Nat
  | wait min _ => timer.wait min
  | typeText text delay => (text.toList.length - 1) * timer.wait delay
  | _ => 0

/-- Whether each instruction of a script leads to the one behind it, and leaves nothing to
chance. -/
def Script.IsStraight (script : Script) : Prop :=
  ∀ i ∈ script.instructions, ¬ i.command.Directs ∧ i.command.IsFixed

/-- What an instruction that begins at a time leaves in the trace of a run. -/
def Instruction.traceAt (i : Instruction) (timer : Timer) (time : Nat) : List (Nat × Event) :=
  (time, .executing i.line i.name) :: (Action.play timer time i.command.actions).2

namespace Script

variable (script : Script) (timer : Timer) (lineDelay : Span) (start : Nat)

/-- The milliseconds for which the first few instructions pause by themselves. -/
def pauses (count : Nat) : Nat :=
  ((script.instructions.take count).map fun i => i.command.pause timer).sum

/-- The time at which the instruction at an index begins. -/
def beginsAt (index : Nat) : Nat :=
  start + index * timer.wait lineDelay + script.pauses timer index

/-- The time at which the first few instructions are over. There is no line delay behind the last of
them. -/
def overAt (count : Nat) : Nat :=
  start + (count - 1) * timer.wait lineDelay + script.pauses timer count

/-- What the first few instructions leave in the trace of a run. -/
def timeline (count : Nat) : List (Nat × Event) :=
  (script.instructions.zipIdx.take count).flatMap fun (i, index) =>
    i.traceAt timer (script.beginsAt timer lineDelay start index)

variable {script} {index : Nat} {i : Instruction}

/-- One more instruction. -/
theorem pauses_succ (hi : script.instructions[index]? = some i) :
    script.pauses timer (index + 1) = script.pauses timer index + i.command.pause timer := by
  rw [pauses, List.take_add_one, hi]
  simp [pauses]

variable {timer} in
theorem pauses_eq_zero (h : ∀ i ∈ script.instructions, i.command.pause timer = 0) (count : Nat) :
    script.pauses timer count = 0 := by
  refine List.sum_eq_zero_iff_forall_eq_nat.mpr ?_
  intro pause hpause
  obtain ⟨i, hi, rfl⟩ := List.mem_map.mp hpause
  exact h i (List.mem_of_mem_take hi)

/-- An instruction is over when its own pauses are. -/
theorem overAt_succ (hi : script.instructions[index]? = some i) :
    script.overAt timer lineDelay start (index + 1) =
      script.beginsAt timer lineDelay start index + i.command.pause timer := by
  rw [overAt, beginsAt, pauses_succ timer hi, Nat.add_sub_cancel]
  omega

/-- Behind an instruction that is over there is a line delay before the next one. -/
theorem beginsAt_eq (hpos : 0 < index) : script.beginsAt timer lineDelay start index =
    script.overAt timer lineDelay start index + timer.wait lineDelay := by
  obtain ⟨before, rfl⟩ := Nat.exists_eq_succ_of_ne_zero (Nat.ne_of_gt hpos)
  rw [beginsAt, overAt, Nat.succ_sub_one, Nat.succ_mul]
  omega

theorem timeline_succ (hi : script.instructions[index]? = some i) :
    script.timeline timer lineDelay start (index + 1) =
      script.timeline timer lineDelay start index ++
        i.traceAt timer (script.beginsAt timer lineDelay start index) := by
  have hindexed : script.instructions.zipIdx[index]? = some (i, index) := by
    rw [List.getElem?_zipIdx, hi, Option.map_some, Nat.zero_add]
  rw [timeline, List.take_add_one, hindexed, List.flatMap_append]
  simp [timeline]

end Script

namespace LineMachine

/-! ### How long a command takes -/

section Playing

variable (timer : Timer)

/-- Playing effects only takes no time. -/
theorem play_perform_time (now : Nat) (effects : List Effect) :
    (Action.play timer now (effects.map .perform)).1 = now := by
  have hplay := play_perform timer now effects []
  rw [List.append_nil] at hplay
  exact congrArg Prod.fst hplay

/-- Playing a command takes as long as it pauses by itself. -/
theorem play_actions_time (now : Nat) (c : Command) :
    (Action.play timer now c.actions).1 = now + c.pause timer := by
  cases c with
  | wait min max => rfl
  | typeText text delay => exact congrArg Prod.fst (play_actions_typeText timer now text delay)
  | keyPress chord => exact play_perform_time timer now (Command.strike chord)
  | mouseClick button => exact play_perform_time timer now (Command.click button)
  | _ => rfl

/-- No action is over before it begins. -/
theorem le_play (now : Nat) (actions : List Action) : now ≤ (Action.play timer now actions).1 := by
  induction actions generalizing now with
  | nil => exact Nat.le_refl now
  | cons action rest ih =>
    cases action with
    | perform effect => exact ih now
    | sleep span => exact Nat.le_trans (Nat.le_add_right now (timer.wait span)) (ih _)

/-- What is played are the effects, in order. -/
theorem effectsOf_play (now : Nat) (actions : List Action) :
    effectsOf (Action.play timer now actions).2 = actions.filterMap Action.effect? := by
  induction actions generalizing now with
  | nil => rfl
  | cons action rest ih =>
    cases action with
    | perform effect => exact congrArg (effect :: ·) (ih now)
    | sleep span => exact ih (now + timer.wait span)

/-- The effects on the timeline of a script are those of its instructions, in order. -/
theorem effectsOf_timeline (script : Script) (lineDelay : Span) (start : Nat) :
    effectsOf (script.timeline timer lineDelay start script.length) =
      script.instructions.flatMap fun i => i.command.effects := by
  have heach (i : Instruction) (time : Nat) :
      effectsOf (i.traceAt timer time) = i.command.effects :=
    effectsOf_play timer time i.command.actions
  have hall : script.instructions.zipIdx.take script.length = script.instructions.zipIdx :=
    List.take_of_length_le (by simp [Script.length])
  rw [Script.timeline, hall, effectsOf, List.filterMap_flatMap]
  have hsame (pair : Instruction × Nat) : (pair.1.traceAt timer
      (script.beginsAt timer lineDelay start pair.2)).filterMap (fun entry => entry.2.effect?) =
        pair.1.command.effects := heach pair.1 _
  simp only [hsame]
  conv_rhs => rw [← List.zipIdx_map_fst 0 script.instructions, List.flatMap_map]

end Playing

/-! ### The machine -/

namespace Setting

variable (r : Setting)

/-- The machine begins at the first instruction. -/
theorem indexForLine_one : r.script.indexForLine 1 = 0 := by
  refine Script.indexForLine_eq (Nat.zero_le _) (by simp) ?_
  intro i hi
  exact r.line_pos (List.mem_of_getElem? hi)

/-- Where the machine stands after some instructions of a straight script. -/
theorem machine_straight (hstraight : r.script.IsStraight) {count : Nat}
    (hcount : count ≤ r.script.length) : ∃ line, r.script.indexForLine line = count ∧
      r.machine count = ⟨line, r.script.overAt r.env.timer r.lineDelay r.time count,
        decide (0 < count), r.script.timeline r.env.timer r.lineDelay r.time count, none⟩ := by
  induction count with
  | zero =>
    have hzero : r.script.overAt r.env.timer r.lineDelay r.time 0 = r.time := by
      simp [Script.overAt, Script.pauses]
    refine ⟨1, r.indexForLine_one, ?_⟩
    rw [hzero]
    rfl
  | succ count ih =>
    obtain ⟨line, hline, hmachine⟩ := ih (Nat.le_of_succ_le hcount)
    obtain ⟨i, hi⟩ : ∃ i, r.script.instructions[count]? = some i :=
      ⟨_, List.getElem?_eq_getElem hcount⟩
    have hfetch : fetch r.lines line = some i := by
      rw [fetch_eq r.compiled, hline, hi]
    -- There is a line delay before every instruction but the first.
    have hdue : (r.machine count).due r.env.timer r.lineDelay =
        r.script.beginsAt r.env.timer r.lineDelay r.time count := by
      rw [hmachine, Config.due]
      by_cases hpos : 0 < count
      · rw [if_pos (decide_eq_true hpos), Script.beginsAt_eq _ r.lineDelay r.time hpos]
      · obtain rfl : count = 0 := by omega
        simp [Script.overAt, Script.beginsAt]
    have hdirects := (hstraight i (List.mem_of_getElem? hi)).1
    refine ⟨i.line + 1, Script.indexForLine_line_succ r.sorted hi, ?_⟩
    show step r.env.timer r.lines r.lineDelay (r.machine count) = _
    rw [step, hmachine]
    dsimp only
    rw [hfetch, ← hmachine, hdue]
    dsimp only
    rw [execute_of_not_directs _ _ hdirects, play_actions_time, Script.overAt_succ _ _ _ hi,
      Script.timeline_succ _ _ _ hi, hmachine]
    rfl

/-- Behind the last instruction the machine has completed. -/
theorem machine_over (hstraight : r.script.IsStraight) : ∃ line,
    r.machine (r.script.length + 1) =
      ⟨line, r.script.overAt r.env.timer r.lineDelay r.time r.script.length,
        decide (0 < r.script.length),
        r.script.timeline r.env.timer r.lineDelay r.time r.script.length, some .completed⟩ := by
  obtain ⟨line, hline, hmachine⟩ := r.machine_straight hstraight (Nat.le_refl r.script.length)
  have hfetch : fetch r.lines line = none := by
    rw [fetch_eq r.compiled, hline]
    exact List.getElem?_eq_none (Nat.le_refl _)
  refine ⟨line, ?_⟩
  show step r.env.timer r.lines r.lineDelay (r.machine r.script.length) = _
  rw [step, hmachine]
  dsimp only
  rw [hfetch]

end Setting

/-! ### A run without a pause -/

/-- A program whose actions take no time does not fall asleep. -/
theorem returned_of_play {env : Surroundings}
    (hdevice : ∀ call effect, env.device call effect = .done) {p : Program}
    {actions : List Action} (hplays : Program.Plays p actions) {s : Stage}
    (hgoes : s.cancelled = false) (hquick : (Action.play env.timer s.now actions).1 = s.now) :
    (p.run env s).2 = .returned ∧ (p.run env s).1.cancelled = false ∧
      (p.run env s).1.transfer = s.transfer := by
  obtain ⟨effects, hextends, hhalts⟩ := run_of_plays hdevice hplays hgoes
  refine ⟨?_, hextends.cancelled.trans hgoes, hextends.transfer⟩
  obtain ⟨⟨s', halt⟩, hrun⟩ : ∃ result, p.run env s = result := ⟨_, rfl⟩
  rw [hrun] at hextends hhalts ⊢
  cases halt with
  | returned => rfl
  | failed cause => exact hhalts.elim
  | crashed => exact hhalts.elim
  | asleep wake rest =>
    -- What is left would be over only after the time that the program sleeps for.
    obtain ⟨left, -, -, -, hplay⟩ := hhalts
    have hlater : s'.now < wake := Program.lt_of_asleep hrun
    have hover : (Action.play env.timer wake left).1 = s.now := by
      rw [← hquick, hplay]
    have hleft := le_play env.timer wake left
    have hnow : s'.now = s.now := hextends.now
    omega

/-- Instructions without a pause are run to the end. -/
theorem runFrom_ends {env : Surroundings}
    (hdevice : ∀ call effect, env.device call effect = .done) {delay : Span}
    (hdelay : delay.isZero = true) {is : List Instruction}
    (his : ∀ i ∈ is, i.command.IsBuiltin ∧ (¬ i.command.Directs ∧ i.command.IsFixed) ∧
      i.command.pause env.timer = 0) (index : Nat) (s : Stage) :
    ∃ stage outcome, Worker.runFrom env delay index is s = (stage, .ended outcome) := by
  induction is generalizing index s with
  | nil => exact ⟨_, _, rfl⟩
  | cons i rest ih =>
    rw [Worker.runFrom]
    split
    · exact ⟨_, _, rfl⟩
    · rename_i hcancelled
      have hgoOn := ih (fun j hj => his j (List.mem_cons_of_mem i hj)) (index + 1)
      obtain ⟨hbuiltin, ⟨hdirects, hfixed⟩, hpause⟩ := his i List.mem_cons_self
      obtain ⟨hreturned, hgoes, hnone⟩ := returned_of_play hdevice
        (Command.plays_program hbuiltin hfixed hdirects) (s := s.beginInstruction index i)
        (show s.cancelled = false by simpa using hcancelled)
        (by rw [play_actions_time, hpause, Nat.add_zero])
      obtain ⟨⟨after, halt⟩, hrun⟩ :
          ∃ result, i.command.program.run env (s.beginInstruction index i) = result := ⟨_, rfl⟩
      rw [hrun] at hreturned hgoes hnone ⊢
      dsimp only at hreturned hgoes hnone ⊢
      rw [hreturned, Worker.settle, hnone]
      show ∃ stage outcome, (if rest.isEmpty then _ else _) = _
      split
      · exact hgoOn after
      · -- The line delay is empty, so it is skipped.
        have hskipped : Sleep.begin env.timer after.cancelled delay after.now = .over true := by
          simp [Sleep.begin, hgoes, hdelay]
        rw [Worker.delayLine, hskipped]
        exact hgoOn after

/-- A run without a pause is over after its first stretch. -/
theorem running_poll_launch {script : Script} (hbuiltin : script.IsBuiltin)
    (hstraight : script.IsStraight) {e : Engine} {lineDelay : Span}
    (hdevice : ∀ call effect, e.surroundings.device call effect = .done)
    (hstart : e.startDelay.isZero = true) (hdelay : lineDelay.isZero = true)
    (hpauses : ∀ i ∈ script.instructions, i.command.pause e.surroundings.timer = 0) :
    (e.launch script lineDelay).poll.running = false := by
  let launched := e.launch script lineDelay
  have hskipped : Sleep.begin e.surroundings.timer launched.stage.cancelled e.startDelay
      launched.stage.now = .over true := by
    show Sleep.begin e.surroundings.timer false e.startDelay e.stage.now = _
    simp [Sleep.begin, hstart]
  obtain ⟨stage, outcome, hends⟩ := runFrom_ends hdevice hdelay
    (fun i hi => ⟨hbuiltin i hi, hstraight i hi, hpauses i hi⟩) 0 launched.stage
  have hpoll : Worker.poll ⟨script, lineDelay, .fresh⟩ e.surroundings e.startDelay launched.stage =
      (stage, .ended outcome) := by
    rw [Worker.poll]
    dsimp only
    rw [hskipped]
    exact hends
  show launched.poll.running = false
  rw [Engine.poll_of_ready (e := launched) (w := ⟨script, lineDelay, .fresh⟩) rfl rfl]
  show (launched.afterStretch _ (Worker.poll _ e.surroundings e.startDelay _)).running = false
  rw [hpoll]
  exact Engine.running_close launched stage outcome outcome

end LineMachine

/-! ### A run -/

open LineMachine in
/-- A run of a straight script that nobody stops, on a device that performs every effect, traces the
timeline of the script and is completed when its last instruction is over. -/
theorem traces_straight {lines : List String} {script : Script}
    (hcompile : builtin.compile lines = .ok script) (hstraight : script.IsStraight) {e : Engine}
    (hidle : e.isRunning = false)
    (hdevice : ∀ call effect, e.surroundings.device call effect = .done) (lineDelay : Span)
    {ops : List Operation} (hops : ∀ op ∈ ops, op ≠ .stop) :
    let timer := e.surroundings.timer
    let start := e.stage.now + timer.wait e.startDelay
    Traces (e.start script lineDelay).1 (script.timeline timer lineDelay start script.length)
      (script.overAt timer lineDelay start script.length)
      ((e.start script lineDelay).1.performAll ops) := by
  intro timer start
  have hfixed : script.IsFixed := fun i hi => (hstraight i hi).2
  let r : Setting := ⟨lines, script, hcompile, hfixed, lineDelay, e.startDelay, e.surroundings,
    hdevice, start, []⟩
  obtain ⟨line, hover⟩ := r.machine_over hstraight
  have hrun : run timer lines lineDelay start (script.length + 1) = _ := hover
  have hended := traces_of_ended (n := script.length + 1)
    (refined_launch hcompile hfixed e hdevice lineDelay ops hops) (by rw [hrun])
  rw [hrun] at hended
  rw [Engine.start_of_idle hidle]
  exact hended

open LineMachine in
/-- The timeline of a script that was compiled, in which no instruction jumps, stops the run or
pauses for a random time. In a run of it that nobody stops, with an exact timer and on a device that
performs every effect, each instruction begins when the start delay is over, and then a line delay
and its own pauses later for each instruction before it. The run performs the effects of the
instructions in order, and it is completed when the last of them is over. Each pause is rounded up
to whole milliseconds for itself. If there is no pause at all, the run is over after its first
stretch. -/
theorem straight_line_timing {lines : List String} {script : Script}
    (hcompile : builtin.compile lines = .ok script) (hstraight : script.IsStraight) {e : Engine}
    (hidle : e.isRunning = false)
    (hdevice : ∀ call effect, e.surroundings.device call effect = .done)
    (hexact : e.surroundings.timer.IsExact) (lineDelay : Span)
    (ops : List Operation) (hops : ∀ op ∈ ops, op ≠ .stop) :
    let start := e.stage.now + e.startDelay.ticks
    let started := (e.start script lineDelay).1
    let whole := script.timeline .exact lineDelay start script.length
    Traces started whole (script.overAt .exact lineDelay start script.length)
        (started.performAll ops) ∧
      effectsOf whole = script.instructions.flatMap (fun i => i.command.effects) ∧
      (e.startDelay.isZero = true → lineDelay.isZero = true →
        (∀ i ∈ script.instructions, i.command.pause .exact = 0) →
          ∃ part, RunSoFar started started.poll part (some (e.stage.now, .completed)) ∧
            traced part = whole) := by
  intro start started whole
  have htimer : e.surroundings.timer = .exact := hexact.eq_exact
  have hstarted : started = e.launch script lineDelay := by
    show (e.start script lineDelay).1 = _
    rw [Engine.start_of_idle hidle]
  have htraces (ops : List Operation) (hops : ∀ op ∈ ops, op ≠ .stop) :
      Traces started whole (script.overAt .exact lineDelay start script.length)
        (started.performAll ops) := by
    have hstraight := traces_straight hcompile hstraight hidle hdevice lineDelay hops
    rwa [htimer] at hstraight
  refine ⟨htraces ops hops, effectsOf_timeline .exact script lineDelay start, ?_⟩
  intro hstart hdelay hpauses
  obtain ⟨⟨part, ending, hpart, -, hending⟩, -⟩ := htraces [.yield 1] (by simp)
  have hover : started.poll.running = false := by
    rw [hstarted]
    exact running_poll_launch (Script.IsCompiled.isBuiltin ⟨lines, hcompile⟩) hstraight hdevice
      hstart hdelay (htimer ▸ hpauses)
  have hfinish : script.overAt .exact lineDelay start script.length = e.stage.now := by
    have hnostart : e.startDelay.ticks = 0 := (Span.ticks_eq_zero_iff _).mpr hstart
    have hnodelay : Timer.exact.wait lineDelay = 0 := (Timer.exact.wait_eq_zero_iff _).mpr hdelay
    simp only [Script.overAt, start, hnostart, hnodelay, Script.pauses_eq_zero hpauses,
      Nat.mul_zero, Nat.add_zero]
  rcases hending with rfl | ⟨rfl, htrace⟩
  · -- The run is over, so it has an ending.
    have hrunning : started.poll.running = true := hpart.events.1
    rw [hover] at hrunning
    cases hrunning
  · rw [hfinish] at hpart
    exact ⟨part, hpart, htrace⟩

/-- A wait, two characters and the wheel. The start delay and the line delay are no whole numbers of
milliseconds, and are rounded up to 100 and 20. -/
theorem straight_line_timing_rounded : ∃ script,
    builtin.compile ["Wait 7", "", "KeyPressText ab 40", "MouseWheel 1"] = .ok script ∧
      script.IsStraight ∧
      (let started := ((Engine.new ⟨99500000⟩ .plain).start script ⟨19000001⟩).1
       let whole := script.timeline .exact ⟨19000001⟩ 100 3
       Traces started whole (script.overAt .exact ⟨19000001⟩ 100 3)
          (started.performAll [.advance (.ofMillis 130) 9]) ∧
        script.overAt .exact ⟨19000001⟩ 100 3 = 187 ∧
        whole = [(100, .executing 1 "Wait"), (127, .executing 3 "KeyPressText"),
          (127, .performed (.key (.char 'a') .down)), (127, .performed (.key (.char 'a') .up)),
          (167, .performed (.key (.char 'b') .down)), (167, .performed (.key (.char 'b') .up)),
          (187, .executing 4 "MouseWheel"), (187, .performed (.wheel 1))]) := by
  have hcompile : builtin.compile ["Wait 7", "", "KeyPressText ab 40", "MouseWheel 1"] =
      .ok ⟨[⟨1, ["7"], .wait (.ofMillis 7) (.ofMillis 7)⟩,
        ⟨3, ["ab", "40"], .typeText "ab" (.ofMillis 40)⟩, ⟨4, ["1"], .mouseWheel 1⟩], 4⟩ := by
    with_unfolding_all rfl
  have hstraight : Script.IsStraight ⟨[⟨1, ["7"], .wait (.ofMillis 7) (.ofMillis 7)⟩,
      ⟨3, ["ab", "40"], .typeText "ab" (.ofMillis 40)⟩, ⟨4, ["1"], .mouseWheel 1⟩], 4⟩ := by
    simp [Script.IsStraight, Command.Directs, Command.IsFixed]
  obtain ⟨htraces, -, -⟩ := straight_line_timing hcompile hstraight
    (e := Engine.new ⟨99500000⟩ .plain) rfl (fun _ _ => rfl) Timer.isExact_exact ⟨19000001⟩
    [.advance (.ofMillis 130) 9] (by simp)
  exact ⟨_, hcompile, hstraight, htraces, by decide +kernel, by decide +kernel⟩

end InputScript
