import InputScript.Proofs.Engine.BuiltinCourse
import Mathlib.Data.List.Infix

/-!
# `InputScript.Proofs.Engine.Undisturbed`: the run that nothing interrupts

Beside a run stands the one that the same engine would make of the same script if its device
performed every effect and nobody asked for a stop. It may go on for ever, so what it has traced
is known by the number of rounds that it is given; more rounds only add to the trace.

A stretch of that run is one call of the worker, but another run may be followed step by step.
So `Course.final` says where the stretch will end from a point inside it. A step of the worker does
not change that (`Course.Work.onward_eq`), and from one rest to the next some more rounds are
needed (`Course.Leads.goOn`).

* `Engine.undisturbedTrace`: what the undisturbed run has traced after some rounds.
* `Course.Leads.goOn`: given time, it goes on from where it rests.
-/

set_option autoImplicit false

namespace InputScript

/-- The same surroundings with a device that performs every effect. -/
def Surroundings.undisturbed (env : Surroundings) : Surroundings :=
  { env with device := fun _ _ => .done }

/-- The same run on a device that performs every effect. -/
def Course.undisturbed (r : Course) : Course :=
  { r with env := r.env.undisturbed }

/-- The trace of a stage grows in every chain of changes. -/
theorem Stage.Steps.trace_grows {env : Surroundings} {s s' : Stage} (h : Stage.Steps env s s') :
    s.trace <+: s'.trace := by
  obtain ⟨new, hnew⟩ := h.added
  refine ⟨traced new.reverse, ?_⟩
  rw [Stage.trace, Stage.trace, hnew.history, List.reverse_append, traced, traced, traced,
    List.filter_append]

namespace Engine

/-- The same engine on a device that performs every effect. -/
def undisturbed (e : Engine) : Engine :=
  { e with surroundings := e.surroundings.undisturbed }

/-- What is traced by the run that an engine makes of a script when nothing interrupts it,
after a number of rounds. -/
def undisturbedTrace (e : Engine) (script : Script) (lineDelay : Span) (rounds : Nat) :
    List (Nat × Event) :=
  let started := (e.undisturbed.start script lineDelay).1
  (started.finishRun rounds).stage.trace.drop started.stage.trace.length

/-- The trace grows while a run is finished. -/
theorem trace_finishRun (e : Engine) (rounds : Nat) :
    e.stage.trace <+: (e.finishRun rounds).stage.trace := by
  have hgrows : Progressive fun e' => e.stage.trace <+: e'.stage.trace := by
    refine ⟨?_, fun e' time h _ _ _ => h⟩
    intro e' h
    obtain ⟨added, hadded⟩ := e'.events_poll
    have hpoll : e'.poll.stage.trace = e'.stage.trace ++ traced added := by
      show traced e'.poll.events = traced e'.events ++ traced added
      rw [hadded, traced, traced, traced, List.filter_append]
    rw [hpoll]
    exact h.trans (List.prefix_append _ _)
  exact hgrows.finishRun rounds List.prefix_rfl

/-- More rounds only add to the trace of the undisturbed run. -/
theorem undisturbedTrace_mono (e : Engine) (script : Script) (lineDelay : Span)
    {rounds rounds' : Nat} (h : rounds ≤ rounds') :
    e.undisturbedTrace script lineDelay rounds <+:
      e.undisturbedTrace script lineDelay rounds' := by
  obtain ⟨more, rfl⟩ := Nat.exists_eq_add_of_le h
  simp only [undisturbedTrace]
  rw [← finishRun_add]
  exact (trace_finishRun _ more).drop _

end Engine

namespace Course

variable (q : Course)

/-! ### Where a stretch will end -/

/-- Running the script from an index on. -/
def continueAt (index : Nat) (s : Stage) : Stage × Progress :=
  Worker.runFrom q.env q.lineDelay index (q.script.instructions.drop index) s

/-- Where the stretch will end that has come to a point. -/
def final : State → State
  | ⟨s, .before index⟩ => reached (q.continueAt index s)
  | ⟨s, .delaying next⟩ =>
    reached (Worker.delayLine q.env.timer q.lineDelay next (q.continueAt next) s)
  | ⟨s, .inside index p⟩ =>
    match q.script.instructions.drop index with
    | [] => ⟨s, .inside index p⟩
    | i :: following =>
      let (after, halt) := p.run q.env s
      reached (Worker.settle q.env.timer q.lineDelay index i following.isEmpty
        (q.continueAt (index + 1)) after halt)
  | state => state

/-- Where the next stretch will end from a rest, and the present one from any other point. -/
def onward : State → State
  | ⟨s, .resting phase⟩ => reached ((q.worker phase).poll q.env q.startDelay s)
  | state => q.final state

variable {q} {state state' : State} {s s' : Stage} {index : Nat} {i : Instruction}

/-- Inside an instruction the stretch goes on where its program comes to a halt. -/
theorem final_inside {p : Program} {halt : Halt} (hi : q.script.instructions[index]? = some i)
    (hrun : p.run q.env s = (s', halt)) : q.final ⟨s, .inside index p⟩ =
      reached (Worker.settle q.env.timer q.lineDelay index i
        (q.script.instructions.drop (index + 1)).isEmpty (q.continueAt (index + 1)) s' halt) := by
  rw [final, Script.drop_eq_cons_iff.mpr ⟨hi, rfl⟩]
  dsimp only
  rw [hrun]

/-- Before an instruction that begins, the stretch goes on inside it. -/
theorem final_begin (hgoes : s.cancelled = false)
    (hi : q.script.instructions[index]? = some i) : q.final ⟨s, .before index⟩ =
      q.final ⟨s.beginInstruction index i, .inside index i.command.program⟩ := by
  rw [final_inside hi rfl]
  show reached (q.continueAt index s) = _
  rw [continueAt, Script.drop_eq_cons_iff.mpr ⟨hi, rfl⟩, Worker.runFrom, if_neg (by simp [hgoes])]
  rfl

/-- In a run that is to stop the stretch ends before the next instruction. -/
theorem final_before_of_cancelled (h : s.cancelled = true) (index : Nat) :
    q.final ⟨s, .before index⟩ = ⟨s, .ended .stopped⟩ := by
  show reached (q.continueAt index s) = _
  rw [continueAt, Worker.runFrom_of_cancelled _ h]
  rfl

/-- A line delay that is not taken leads to the instruction behind it. -/
theorem final_skipDelay (h : s.cancelled = true ∨ q.lineDelay.isZero = true) (next : Nat) :
    q.final ⟨s, .delaying next⟩ = q.final ⟨s, .before next⟩ := by
  show reached (Worker.delayLine q.env.timer q.lineDelay next (q.continueAt next) s) = _
  cases hcancelled : s.cancelled with
  | true =>
    rw [final_before_of_cancelled hcancelled, Worker.delayLine_of_cancelled hcancelled]
    rfl
  | false =>
    have hempty : q.lineDelay.isZero = true := by simpa [hcancelled] using h
    rw [Worker.delayLine, Sleep.begin, hcancelled, hempty]
    rfl

/-- A start delay that is not taken leads to the first instruction. -/
theorem onward_skipStart (h : s.cancelled = true ∨ q.startDelay.isZero = true) :
    q.onward ⟨s, .resting .fresh⟩ = q.final ⟨s, .before 0⟩ := by
  show reached (Worker.poll ⟨q.script, q.lineDelay, .fresh⟩ q.env q.startDelay s) = _
  cases hcancelled : s.cancelled with
  | true =>
    rw [final_before_of_cancelled hcancelled, Worker.poll]
    dsimp only
    rw [Sleep.begin, hcancelled]
    rfl
  | false =>
    have hempty : q.startDelay.isZero = true := by simpa [hcancelled] using h
    rw [Worker.poll]
    dsimp only
    rw [Sleep.begin, hcancelled, hempty]
    rfl

/-- After a sleep the next instruction begins, unless the run is to stop. -/
theorem final_of_awake (index : Nat) (s : Stage) :
    reached (if s.cancelled then (s, .ended .stopped) else q.continueAt index s) =
      q.final ⟨s, .before index⟩ := by
  split
  · rename_i hcancelled
    rw [final_before_of_cancelled hcancelled]
    rfl
  · rfl

/-- A step of the worker does not change where the stretch ends. -/
theorem Work.onward_eq (h : q.Work state state') : q.onward state = q.final state' := by
  cases h with
  | skipStart s h => exact onward_skipStart h
  | delayStart s hgoes hlong =>
    show reached (Worker.poll ⟨q.script, q.lineDelay, .fresh⟩ q.env q.startDelay s) = _
    rw [Worker.poll]
    dsimp only
    rw [Sleep.begin, hgoes, hlong]
    rfl
  | wakeToStart s wake => exact final_of_awake 0 s
  | wakeToNext s wake next => exact final_of_awake next s
  | resume s index wake rest i hi =>
    rw [final_inside hi rfl]
    show reached (Worker.resume ⟨q.script, q.lineDelay, _⟩ q.env index wake rest s) = _
    rw [Worker.resume, Script.drop_eq_cons_iff.mpr ⟨hi, rfl⟩]
    rfl
  | land s line h =>
    show reached (if q.script.indexForLine line < q.script.length then _ else _) = _
    rw [if_pos h]
    rfl
  | landBehind s line h =>
    show reached (if q.script.indexForLine line < q.script.length then _ else _) = _
    rw [if_neg (Nat.not_lt.mpr h)]
    rfl
  | skipDelay s next h => exact final_skipDelay h next
  | delay s next hgoes hlong =>
    show reached (Worker.delayLine q.env.timer q.lineDelay next (q.continueAt next) s) = _
    rw [Worker.delayLine, Sleep.begin, hgoes, hlong]
    rfl
  | halt s index hcancelled => exact final_before_of_cancelled hcancelled index
  | finish s index hgoes hnone =>
    show reached (q.continueAt index s) = _
    have hnothing : q.script.instructions.drop index = [] :=
      List.drop_eq_nil_iff.mpr (List.getElem?_eq_none_iff.mp hnone)
    rw [continueAt, hnothing, Worker.runFrom, hgoes]
    rfl
  | begin s index i hgoes hi => exact final_begin hgoes hi
  | pause s s' index i p wake rest hi hrun => exact final_inside hi hrun
  | fail s s' index i p cause hi hrun => exact final_inside hi hrun
  | crash s s' index i p hi hrun => exact final_inside hi hrun
  | jump s s' index i p target hi hrun htransfer =>
    refine (final_inside hi hrun).trans ?_
    rw [Worker.settle, htransfer]
    rfl
  | stop s s' index i p hi hrun htransfer =>
    refine (final_inside hi hrun).trans ?_
    rw [Worker.settle, htransfer]
    rfl
  | pass s s' index i p hi hrun htransfer hmore =>
    refine (final_inside hi hrun).trans ?_
    have hlast : ¬ (q.script.instructions.drop (index + 1)).isEmpty = true := by
      rw [isEmpty_drop_iff]
      exact Nat.not_le.mpr hmore
    rw [Worker.settle, htransfer]
    dsimp only
    rw [if_neg hlast]
    rfl
  | passLast s s' index i p hi hrun htransfer hlast =>
    refine (final_inside hi hrun).trans ?_
    rw [Worker.settle, htransfer]
    dsimp only
    rw [if_pos ((isEmpty_drop_iff _ _).mpr hlast)]
    rfl

/-- Running the script from an index on is a chain of changes. -/
theorem continueAt_steps (index : Nat) (s : Stage) :
    Stage.Steps q.env s (q.continueAt index s).1 :=
  Worker.runFrom_steps q.env q.lineDelay index _ s

/-- What a program traces, the stretch that it belongs to traces as well. -/
theorem trace_final_inside {p : Program} (hi : q.script.instructions[index]? = some i) :
    (p.run q.env s).1.trace <+: (q.final ⟨s, .inside index p⟩).stage.trace := by
  rw [final_inside hi rfl]
  exact (Worker.settle_steps q.env (continueAt_steps (index + 1)) ..).trace_grows

/-- What was traced at a point stays traced when the stretch ends. -/
theorem trace_final (state : State) : state.stage.trace <+: (q.final state).stage.trace := by
  obtain ⟨s, point⟩ := state
  cases point with
  | resting phase => exact List.prefix_rfl
  | ended outcome => exact List.prefix_rfl
  | before index => exact (continueAt_steps index s).trace_grows
  | delaying next =>
    have hsteps :=
      Worker.delayLine_steps q.env (continueAt_steps next) q.env.timer q.lineDelay next s
    exact hsteps.trace_grows
  | inside index p =>
    cases hi : q.script.instructions[index]? with
    | some i => exact (p.run_steps q.env s).trace_grows.trans (trace_final_inside hi)
    | none =>
      have hnothing : q.script.instructions.drop index = [] :=
        List.drop_eq_nil_iff.mpr (List.getElem?_eq_none_iff.mp hi)
      rw [final, hnothing]

/-! ### Following the run from rest to rest -/

variable (q)

/-- An engine stands where the last stretch of the run has led. -/
inductive Stands : Engine → State → Prop where
  | after (e : Engine) (w : Worker) (result : Stage × Progress) (hrunning : e.running = true)
      (hsurroundings : e.surroundings = q.env) (hdelay : e.startDelay = q.startDelay)
      (hscript : w.script = q.script) (hline : w.lineDelay = q.lineDelay) :
      Stands (e.afterStretch w result) (reached result)

/-- Given time, an engine comes to stand in a state of the run. -/
def Leads (e : Engine) (state : State) : Prop :=
  ∃ rounds, q.Stands (e.finishRun rounds) state

variable {q} {e : Engine}

/-- The end of a run and what is told of it are no part of the trace. -/
theorem trace_close (e : Engine) (stage : Stage) (reported told : Outcome) :
    (e.close stage reported told).stage.trace = stage.trace := by
  show traced (e.close stage reported told).events = traced stage.history.reverse
  rw [Engine.events_close, traced, traced, List.filter_append]
  cases hcallback : e.callback <;> simp [Engine.announcement, hcallback, Event.isTraced]

/-- An engine has traced what the state has in which it stands. -/
theorem Stands.trace (h : q.Stands e state) : e.stage.trace = state.stage.trace := by
  obtain ⟨e, w, ⟨stage, progress⟩, -, -, -, -, -⟩ := h
  cases progress with
  | suspended phase => rfl
  | ended outcome => exact trace_close e stage outcome outcome
  | crashed => exact trace_close e stage .crashed _

/-- An engine that stands at a rest has its worker there. -/
theorem Stands.worker {phase : Phase} (h : q.Stands e ⟨s, .resting phase⟩) :
    e.stage = s ∧ e.worker = some (q.worker phase) ∧ e.running = true ∧
      e.surroundings = q.env ∧ e.startDelay = q.startDelay := by
  generalize hstate : (⟨s, .resting phase⟩ : State) = state at h
  obtain ⟨e, ⟨script, lineDelay, earlier⟩, ⟨stage, progress⟩, hrunning, hsurroundings, hdelay,
    hscript, hline⟩ := h
  cases progress with
  | suspended phase' =>
    cases hstate
    obtain rfl : script = q.script := hscript
    obtain rfl : lineDelay = q.lineDelay := hline
    exact ⟨rfl, rfl, hrunning, hsurroundings, hdelay⟩
  | ended outcome => cases hstate
  | crashed => cases hstate

/-- A worker that can go on runs for a stretch. -/
theorem Stands.poll {phase : Phase} (h : q.Stands e ⟨s, .resting phase⟩) (now : Nat)
    (hready : phase.isReady s.cancelled now = true) :
    q.Stands (e.setClock now).poll (q.onward ⟨{ s with now := now }, .resting phase⟩) := by
  obtain ⟨hstage, hworker, hrunning, hsurroundings, hdelay⟩ := h.worker
  have hpoll : (e.setClock now).poll = (e.setClock now).afterStretch (q.worker phase)
      ((q.worker phase).poll q.env q.startDelay { s with now := now }) := by
    have hready' : (q.worker phase).phase.isReady s.cancelled now = true := hready
    simp only [Engine.poll, Engine.setClock, hworker, hstage, hready', if_true, hsurroundings,
      hdelay]
  rw [hpoll]
  exact .after _ _ _ hrunning hsurroundings hdelay rfl rfl

/-- What an engine comes to is not changed by a step of the worker on the way. -/
theorem Leads.work (h : q.Leads e (q.onward state)) (hwork : q.Work state state') :
    q.Leads e (q.final state') :=
  hwork.onward_eq ▸ h

/-- Given time, the run goes on from where it rests, as soon as the worker can go on and not
later. -/
theorem Leads.goOn {phase : Phase} (h : q.Leads e ⟨s, .resting phase⟩) {now : Nat}
    (hgoes : s.cancelled = false) (hfrom : s.now ≤ now) (hready : phase.isReady false now = true)
    (hto : ∀ wake, phase.wake? = some wake → now ≤ wake)
    (hyield : phase.wake? = none → now = s.now) :
    q.Leads e (q.onward ⟨{ s with now := now }, .resting phase⟩) := by
  obtain ⟨rounds, hstands⟩ := h
  obtain ⟨hstage, hworker, hrunning, -, -⟩ := hstands.worker
  have hpolled := hstands.poll now (by rw [hgoes]; exact hready)
  generalize hu : e.finishRun rounds = u at hstands hstage hworker hrunning hpolled
  by_cases hnow : now = s.now
  · -- The worker can go on at once.
    have hready' : u.isReady = true := by
      simp only [Engine.isReady, hworker, worker, hstage, hgoes, ← hnow, hready]
    have hsame : u.setClock now = u := by rw [hnow, ← hstage]; rfl
    refine ⟨rounds + 1, ?_⟩
    rw [← Engine.finishRun_add, hu, Engine.finishRun_of_ready hrunning hready']
    exact hsame ▸ hpolled
  · -- The worker sleeps until then.
    obtain ⟨wake, hwake⟩ := Option.ne_none_iff_exists'.mp (mt hyield hnow)
    have hdue : wake ≤ now := by simpa [Phase.isReady, hwake] using hready
    obtain rfl : now = wake := Nat.le_antisymm (hto wake hwake) hdue
    have hsleeps : u.wake? = some now := by simp [Engine.wake?, hworker, worker, hwake]
    have hwaits : u.isReady = false := by
      simp only [Engine.isReady, hworker, worker, Phase.isReady, hwake, hstage, hgoes,
        Bool.false_or, decide_eq_false_iff_not]
      omega
    have hready' : (u.setClock now).isReady = true := by
      simp [Engine.isReady, Engine.setClock, hworker, worker, Phase.isReady, hwake]
    refine ⟨rounds + 2, ?_⟩
    rw [← Engine.finishRun_add, hu, Engine.finishRun_of_waits hrunning hwaits hsleeps,
      Engine.finishRun_of_ready (e := u.setClock now) hrunning hready']
    exact hpolled

end Course

end InputScript
