import InputScript.Proofs.Command.Nesting
import InputScript.Proofs.Engine.BuiltinCourse

/-!
# `InputScript.Proofs.Engine.Release`: no input stays held

A script that uses none of the commands that are one half of a gesture leaves no key and no
button held. The transitions that its run has made are nested wherever the worker is suspended
and when the run ends, whatever is done with the engine meanwhile, and whenever a stop is asked
for. The one thing that can leave an input held is a device that refuses an effect, which ends
the run on the spot.

* `Course.Released.step`: every step of a run keeps what it has pressed released.
* `Engine.inputs_released`: so it is wherever the run is seen.
-/

set_option autoImplicit false

namespace InputScript

/-! ### A program -/

/-- What the halt of a program says about the transitions so far: they are nested, unless the
program came to a bad end. -/
def Halt.Releases (before : List (Input × Transition)) : Halt → Prop
  | .returned => Nested before
  | .failed _ => True
  | .crashed => True
  | .asleep _ rest => Nested before ∧ ∀ full, (rest full).Releases before

/-- An event that is no effect adds no transition. -/
theorem inputsOf_record {event : Event} (h : event.effect? = none) (time : Nat)
    (part : List (Nat × Event)) : inputsOf (part ++ [(time, event)]) = inputsOf part := by
  have hnone : inputsOf [(time, event)] = [] := by simp [inputsOf, effectsOf, transitionsOf, h]
  rw [inputsOf_append, hnone, List.append_nil]

/-- A call leaves its effect if it has performed it. -/
theorem effectsOf_callEvents (device : Device) (s : Stage) (effect : Effect) :
    effectsOf (s.callEvents device effect) =
      if (s.reply device effect).answer.performed then [effect] else [] := by
  have hstop : Event.stopRequested.effect? = none := rfl
  rw [Stage.callEvents]
  cases hperformed : (s.reply device effect).answer.performed with
  | true | false => split <;> simp [effectsOf, hstop, hperformed]

/-- A call that has performed its effect adds its transition. -/
theorem inputsOf_call {device : Device} {s : Stage} {effect : Effect}
    (h : (s.reply device effect).answer.performed = true) (part : List (Nat × Event)) :
    inputsOf (part ++ s.callEvents device effect) =
      inputsOf part ++ effect.transition?.toList := by
  rw [inputsOf_append, inputsOf, inputsOf, effectsOf_callEvents, if_pos h]
  cases htransition : effect.transition? <;> simp [transitionsOf, htransition]

/-- One that has not adds none. -/
theorem inputsOf_call_of_not {device : Device} {s : Stage} {effect : Effect}
    (h : (s.reply device effect).answer.performed = false) (part : List (Nat × Event)) :
    inputsOf (part ++ s.callEvents device effect) = inputsOf part := by
  have hnone : effectsOf (s.callEvents device effect) = [] := by
    rw [effectsOf_callEvents, h]
    rfl
  rw [inputsOf_append, inputsOf, inputsOf, hnone]
  exact List.append_nil _

/-- A program that releases what it presses has released it where it comes to a halt. -/
theorem Program.Releases.run {env : Surroundings} {earlier part : List (Nat × Event)}
    {p : Program} {s s' : Stage} {halt : Halt} (h : p.Releases (inputsOf part))
    (hpart : s.history.reverse = earlier ++ part) (hrun : p.run env s = (s', halt)) :
    ∃ part', s'.history.reverse = earlier ++ part' ∧ halt.Releases (inputsOf part') := by
  induction p generalizing s part with
  | done =>
    cases hrun
    exact ⟨part, hpart, h⟩
  | fail cause =>
    cases hrun
    exact ⟨part, hpart, trivial⟩
  | crash =>
    cases hrun
    exact ⟨part, hpart, trivial⟩
  | call effect next failed ih ihFailed =>
    obtain ⟨hnext, hfailed⟩ := h
    have hcalled : (s.call env.device effect).history.reverse =
        earlier ++ (part ++ s.callEvents env.device effect) := by
      rw [s.reverse_history_call, hpart, List.append_assoc]
    rw [Program.run] at hrun
    cases hanswer : (s.reply env.device effect).answer with
    | done =>
      rw [hanswer] at hrun
      refine ih ?_ hcalled hrun
      rw [inputsOf_call (by rw [hanswer]; rfl)]
      exact hnext
    | failed cause performed =>
      rw [hanswer] at hrun
      refine ihFailed cause ?_ hcalled hrun
      cases performed with
      | true =>
        rw [inputsOf_call (by rw [hanswer]; rfl)]
        exact (hfailed cause).2
      | false =>
        rw [inputsOf_call_of_not (by rw [hanswer]; rfl)]
        exact (hfailed cause).1
    | crashed performed =>
      rw [hanswer] at hrun
      cases hrun
      exact ⟨_, hcalled, trivial⟩
  | pause span next ih =>
    obtain ⟨hnested, hnext⟩ := h
    rw [Program.run] at hrun
    split at hrun
    · rename_i full _
      exact ih full (hnext full) hpart hrun
    · cases hrun
      exact ⟨part, hpart, hnested, hnext⟩
  | stopping next ih => exact ih s.cancelled (h s.cancelled) hpart hrun
  | jump line next ih =>
    rw [Program.run] at hrun
    exact ih h (by exact hpart) hrun
  | stop next ih =>
    rw [Program.run] at hrun
    exact ih h (by exact hpart) hrun
  | choose low high next ih =>
    rw [Program.run] at hrun
    exact ih _ (h _) (by exact hpart) hrun

/-! ### A run -/

/-- What a point of a run says about the transitions so far: they are nested, or they will be
where the present program pauses or returns. -/
def Point.Releases (before : List (Input × Transition)) : Point → Prop
  | .resting (.inCommand _ _ rest) => Nested before ∧ ∀ full, (rest full).Releases before
  | .resting _ => Nested before
  | .delaying _ => Nested before
  | .before _ => Nested before
  | .inside _ program => program.Releases before
  | .ended (.failed _) => True
  | .ended _ => Nested before

/-- Whether each command of a script releases what it presses. -/
def Script.Releases (script : Script) : Prop :=
  ∀ i ∈ script.instructions, ∀ before, Nested before → i.command.program.Releases before

namespace Course

/-- What a run has pressed since it began is released, or will be where its present program
pauses or returns. -/
def Released (earlier : List (Nat × Event)) (state : State) : Prop :=
  ∃ part, state.stage.history.reverse = earlier ++ part ∧ state.point.Releases (inputsOf part)

variable {r : Course} {earlier : List (Nat × Event)} {state state' : State}

/-- Where a worker rests the transitions are nested. -/
theorem nested_of_resting {phase : Phase} {before : List (Input × Transition)}
    (h : (Point.resting phase).Releases before) : Nested before := by
  cases phase with
  | inCommand index wake rest => exact h.1
  | fresh | beforeStart | afterJump | betweenLines => exact h

/-- An event that is no effect leaves what is released as it is. -/
theorem Released.record {s : Stage} {point : Point} (h : Released earlier ⟨s, point⟩)
    {event : Event} (hevent : event.effect? = none) : Released earlier ⟨s.record event, point⟩ := by
  obtain ⟨part, hpart, hpoint⟩ := h
  refine ⟨part ++ [(s.now, event)], Stage.added_record hpart event, ?_⟩
  rw [inputsOf_record hevent]
  exact hpoint

/-- What a run has pressed is released where its present program comes to a halt. -/
theorem Released.run {s s' : Stage} {index : Nat} {p : Program} {halt : Halt}
    (h : Released earlier ⟨s, .inside index p⟩) (hrun : p.run r.env s = (s', halt)) :
    ∃ part, s'.history.reverse = earlier ++ part ∧ halt.Releases (inputsOf part) := by
  obtain ⟨part, hpart, hp⟩ := h
  exact Program.Releases.run hp hpart hrun

/-- Every step of the worker keeps what the run has pressed released. -/
theorem Released.work (hscript : r.script.Releases) (h : Released earlier state)
    (hwork : r.Work state state') : Released earlier state' := by
  cases hwork with
  | resume s index wake rest =>
    obtain ⟨part, hpart, -, hrest⟩ := h
    exact ⟨part, hpart, hrest _⟩
  | begin s index i hgoes hi =>
    -- Nothing is held when an instruction begins.
    have hbegun : Released earlier ⟨s.beginInstruction index i, .before index⟩ :=
      h.record rfl
    obtain ⟨part, hpart, hnested⟩ := hbegun
    exact ⟨part, hpart, hscript i (List.mem_of_getElem? hi) _ hnested⟩
  | pause _ _ _ _ _ _ _ _ hrun | fail _ _ _ _ _ _ _ hrun | crash _ _ _ _ _ _ hrun
  | stop _ _ _ _ _ _ hrun | pass _ _ _ _ _ _ hrun | passLast _ _ _ _ _ _ hrun =>
    exact h.run hrun
  | jump s s' index i p target hi hrun =>
    have hreturned : Released earlier ⟨s', .resting (.afterJump target)⟩ := h.run hrun
    exact hreturned.record rfl
  -- The other steps lead from one place between two programs to another.
  | skipStart | delayStart | wakeToStart | land | landBehind | wakeToNext | skipDelay | delay
  | halt | finish => exact h

/-- Every step of a run keeps what it has pressed released. -/
theorem Released.step (hscript : r.script.Releases) (h : Released earlier state)
    (hstep : r.Step state state') : Released earlier state' := by
  cases hstep with
  | work _ _ hwork => exact h.work hscript hwork
  | tick => exact h
  | turnAway s phase event hevent =>
    apply h.record
    rcases hevent with rfl | rfl <;> rfl
  | cancel s phase => exact h.record rfl

/-- Wherever a run stands, what it has pressed is released, or will be. -/
theorem Reaches.released (hscript : r.script.Releases) {s : Stage}
    (h : r.Reaches ⟨s, .resting .fresh⟩ state) : Released s.history.reverse state := by
  induction h with
  | refl => exact ⟨[], (List.append_nil _).symm, .nil⟩
  | tail _ hstep ih => exact ih.step hscript hstep

/-- Where a run is seen, what it has pressed is released, unless it has failed. -/
theorem nested_of_visible {point : Point} {before : List (Input × Transition)} {s : Stage}
    (hvisible : State.IsVisible ⟨s, point⟩) (h : point.Releases before) :
    Nested before ∨ ∃ error, point = .ended (.failed error) := by
  cases point with
  | resting phase => exact .inl (nested_of_resting h)
  | delaying next => exact hvisible.elim
  | before index => exact hvisible.elim
  | inside index p => exact hvisible.elim
  | ended outcome =>
    cases outcome with
    | completed => exact .inl h
    | stopped => exact .inl h
    | failed error => exact .inr ⟨error, rfl⟩

end Course

/-- A compiled script that uses no command that is one half of a gesture releases what it
presses. -/
theorem Script.IsCompiled.releases {script : Script} (h : script.IsCompiled)
    (hwhole : ∀ i ∈ script.instructions, ∀ b ∈ Command.halves, i.name ≠ b.name) :
    script.Releases := by
  intro i hi before hbefore
  exact Command.releases_program (h.isBuiltin i hi) (hwhole i hi) hbefore

namespace Engine

/-- No input stays held. A compiled script that uses no command that is one half of a gesture
was started on an idle engine. Whatever is done afterwards, a stop at any time included, and
whatever stops are asked for from within calls of the device: the transitions of the run are
nested wherever its worker is suspended and when it has ended, so that nothing is held. It can
only be otherwise when a call of the device in this run failed or crashed, and the run with
it. -/
theorem inputs_released {script : Script} (hcompiled : script.IsCompiled)
    (hwhole : ∀ i ∈ script.instructions, ∀ b ∈ Command.halves, i.name ≠ b.name)
    {e : Engine} (hidle : e.isRunning = false) (lineDelay : Span) (ops : List Operation) :
    let started := (e.start script lineDelay).1
    let after := started.performAll ops
    ∃ part ending, RunSoFar started after part ending ∧
      ((Nested (inputsOf part) ∧ ∀ input, ¬ IsHeld (inputsOf part) input) ∨
        ∃ time outcome call effect, ending = some (time, outcome) ∧
          e.stage.calls < call ∧ call ≤ after.stage.calls ∧
          outcome.Refused (e.surroundings.device call effect).answer) := by
  intro started after
  obtain ⟨state, part, hseen⟩ := seen hidle script lineDelay ops
  have hcalls : started.stage.calls = e.stage.calls := by
    show (e.start script lineDelay).1.stage.calls = _
    rw [start_of_idle hidle]
    rfl
  refine ⟨part, state.ending?, hseen.runSoFar, ?_⟩
  obtain ⟨part', hpart', hreleased⟩ := hseen.reaches.released (hcompiled.releases hwhole)
  -- The events of the run are known from its history.
  obtain rfl : part' = part := List.append_cancel_left (hpart'.symm.trans hseen.history)
  rcases Course.nested_of_visible hseen.visible hreleased with hnested | ⟨error, herror⟩
  · exact .inl ⟨hnested, hnested.not_isHeld⟩
  · -- A run that failed was refused its last effect.
    have hfits := (hseen.reaches.fits hcompiled.isBuiltin).point
    rw [herror] at hfits
    obtain ⟨hfirst, ⟨effect, hrefused⟩, -⟩ := hfits
    refine .inr ⟨state.stage.now, .failed error, state.stage.calls, effect, ?_, ?_,
      hseen.calls_le, hrefused⟩
    · rw [Course.State.ending?, herror]
    · rw [← hcalls]
      exact hfirst

/-- A stop is asked for while two keys are down: both come up before the run ends. -/
theorem inputs_released_in_chord : ∃ script,
    Catalog.builtin.compile ["KeyPress Ctrl+a", "Wait 5"] = .ok script ∧
    (let device call (_ : Effect) := if call = 2 then Reply.doneThenStop else .done
     let e := Engine.new .zero { Surroundings.plain with device }
     let started := (e.start script .zero).1
     let after := started.performAll [.yield 1]
     (∃ part ending, RunSoFar started after part ending ∧
        ((Nested (inputsOf part) ∧ ∀ input, ¬ IsHeld (inputsOf part) input) ∨
          ∃ time outcome call effect, ending = some (time, outcome) ∧
            e.stage.calls < call ∧ call ≤ after.stage.calls ∧
            outcome.Refused (e.surroundings.device call effect).answer)) ∧
      after.events = [(0, .started 2 0), (0, .executing 1 "KeyPress"),
        (0, .performed (.key .control .down)), (0, .performed (.key (.char 'A') .down)),
        (0, .stopRequested), (0, .performed (.key (.char 'A') .up)),
        (0, .performed (.key .control .up)), (0, .ended .stopped)]) := by
  have hcompile : Catalog.builtin.compile ["KeyPress Ctrl+a", "Wait 5"] =
      .ok ⟨[⟨1, ["Ctrl+a"], .keyPress ⟨[.control], .char 'A'⟩⟩,
        ⟨2, ["5"], .wait ⟨5000000⟩ ⟨5000000⟩⟩], 2⟩ := by
    with_unfolding_all rfl
  refine ⟨_, hcompile, ?_, ?_⟩
  · refine inputs_released ⟨_, hcompile⟩ ?_ rfl _ _
    simp only [List.forall_mem_cons, List.not_mem_nil, false_implies, implies_true, and_true]
    decide
  · decide +kernel

end Engine

end InputScript
