import InputScript.Engine.Worker
import Mathlib.Data.List.Basic
import Mathlib.Logic.Relation

/-!
# `InputScript.Proofs.Engine.Stretch`: what one stretch of the worker does

A stretch changes the stage in small steps: the device is asked, a number is drawn, a
transfer is noted, an instruction begins, a jump is taken. `Stage.Step` lists them once, with
what guards them. Everything a stretch does is a chain of such steps (`Worker.poll_steps`),
so whatever each step keeps, a stretch keeps.

* `Worker.poll_steps`: a stretch is a chain of steps.
* `Stage.Steps.added`: such a chain takes no time and only adds events of the work. Once a
  stop was asked for, no instruction begins.
-/

set_option autoImplicit false

namespace InputScript

/-- Whether an event belongs to the work of a run, and not to its start, to its end or to the
telling of a callback. -/
def Event.isWork : Event → Bool
  | .executing .. => true
  | .performed _ => true
  | .refused _ => true
  | .jumped .. => true
  | .stopRequested => true
  | _ => false

/-- The line and the command of the instruction that an event begins, if it begins one. -/
def Event.begun? : Event → Option (Nat × String)
  | .executing line command => some (line, command)
  | _ => none

/-- A call is part of the work. -/
@[simp] theorem Event.isWork_ofAnswer (effect : Effect) (answer : Answer) :
    (Event.ofAnswer effect answer).isWork = true := by
  unfold ofAnswer
  split <;> rfl

/-- No instruction begins with a call. -/
@[simp] theorem Event.begun?_ofAnswer (effect : Effect) (answer : Answer) :
    (Event.ofAnswer effect answer).begun? = none := by
  unfold ofAnswer
  split <;> rfl

/-- No stop is asked for with a call itself. -/
@[simp] theorem Event.ofAnswer_ne_stopRequested (effect : Effect) (answer : Answer) :
    Event.ofAnswer effect answer ≠ .stopRequested := by
  unfold ofAnswer
  split <;> simp

namespace Stage

/-- The line and the command of the instruction that began last. -/
def lastBegun? (s : Stage) : Option (Nat × String) :=
  s.history.findSome? fun entry => entry.2.begun?

/-- The events that a call of a device leaves, the earliest first. -/
def callEvents (s : Stage) (device : Device) (effect : Effect) : List (Nat × Event) :=
  (s.now, .ofAnswer effect (s.reply device effect).answer) ::
    if (s.reply device effect).stops then [(s.now, .stopRequested)] else []

theorem reverse_history_call (s : Stage) (device : Device) (effect : Effect) :
    (s.call device effect).history.reverse = s.history.reverse ++ s.callEvents device effect := by
  rw [history_call, callEvents]
  split <;> simp

/-- No instruction begins in a call of a device. -/
theorem begun?_callEvents (s : Stage) (device : Device) (effect : Effect) :
    ∀ entry ∈ s.callEvents device effect, entry.2.begun? = none := by
  rw [callEvents, List.forall_mem_cons]
  refine ⟨Event.begun?_ofAnswer _ _, ?_⟩
  split <;> simp [Event.begun?]

/-- A call begins no instruction. -/
@[simp] theorem lastBegun?_call (s : Stage) (device : Device) (effect : Effect) :
    (s.call device effect).lastBegun? = s.lastBegun? := by
  rw [lastBegun?, history_call]
  have hrequest : Event.begun? .stopRequested = none := rfl
  split <;> simp [lastBegun?, Event.begun?_ofAnswer, hrequest]

/-- One change of the stage in a stretch of the worker. -/
inductive Step (env : Surroundings) : Stage → Stage → Prop where
  /-- The device is asked for an effect. -/
  | call (s : Stage) (effect : Effect) : Step env s (s.call env.device effect)
  | draw (s : Stage) : Step env s { s with draws := s.draws + 1 }
  /-- A command asks to go on at a line. -/
  | askJump (s : Stage) (line : Nat) : Step env s { s with transfer := some (.line line) }
  /-- A command asks to stop. -/
  | askStop (s : Stage) : Step env s { s with transfer := some .stop, cancelled := true }
  /-- An instruction begins, which it does only if the run is not to stop. -/
  | begin (s : Stage) (index : Nat) (i : Instruction) (h : s.cancelled = false) :
      Step env s (s.beginInstruction index i)
  | jump (s : Stage) (source target : Nat) : Step env s (s.record (.jumped source target))

/-- Any number of changes. -/
abbrev Steps (env : Surroundings) : Stage → Stage → Prop :=
  Relation.ReflTransGen (Step env)

end Stage

open Stage (Step Steps)

/-- Where a device just performs an effect, a program goes on after it. -/
theorem Program.run_call_of_done {env : Surroundings} {effect : Effect} {s : Stage}
    (h : s.reply env.device effect = .done) (next : Program) (failed : String → Program) :
    (Program.call effect next failed).run env s =
      next.run env ({ s with calls := s.calls + 1 }.record (.performed effect)) := by
  rw [Program.run, h, Stage.call_of_done h]
  rfl

/-! ### A stretch is a chain of steps -/

section Chain

variable (env : Surroundings)

/-- A program changes the stage step by step. -/
theorem Program.run_steps (p : Program) (s : Stage) : Steps env s (p.run env s).1 := by
  induction p generalizing s with
  | done => exact .refl
  | fail cause => exact .refl
  | crash => exact .refl
  | call effect next failed ih ihFailed =>
    rw [Program.run]
    cases (s.reply env.device effect).answer with
    | done => exact (ih _).head (.call s effect)
    | failed cause performed => exact (ihFailed cause _).head (.call s effect)
    | crashed performed => exact .single (.call s effect)
  | pause span next ih =>
    rw [Program.run]
    split
    · exact ih _ s
    · exact .refl
  | stopping next ih => exact ih _ s
  | jump line next ih => exact (ih _).head (.askJump s line)
  | stop next ih => exact (ih _).head (.askStop s)
  | choose low high next ih => exact (ih _ _).head (.draw s)

variable {goOn : Stage → Stage × Progress} (hgoOn : ∀ s, Steps env s (goOn s).1)

include hgoOn

/-- Taking a line delay adds no change to what follows it. -/
theorem Worker.delayLine_steps (timer : Timer) (delay : Span) (next : Nat) (s : Stage) :
    Steps env s (Worker.delayLine timer delay next goOn s).1 := by
  rw [Worker.delayLine]
  split
  · exact hgoOn s
  · exact .refl
  · exact .refl

/-- Handing over to the next instruction changes the stage step by step. -/
theorem Worker.settle_steps (timer : Timer) (delay : Span) (index : Nat) (i : Instruction)
    (isLast : Bool) (s : Stage) (halt : Halt) :
    Steps env s (Worker.settle timer delay index i isLast goOn s halt).1 := by
  cases halt with
  | asleep wake rest => exact .refl
  | failed cause => exact .refl
  | crashed => exact .refl
  | returned =>
    rw [Worker.settle]
    split
    · exact .single (.jump s i.line _)
    · exact .refl
    · split
      · exact hgoOn s
      · exact Worker.delayLine_steps env hgoOn timer delay (index + 1) s

omit hgoOn

/-- Instructions change the stage step by step. -/
theorem Worker.runFrom_steps (delay : Span) (index : Nat) (is : List Instruction)
    (s : Stage) : Steps env s (Worker.runFrom env delay index is s).1 := by
  induction is generalizing index s with
  | nil => exact .refl
  | cons i rest ih =>
    rw [Worker.runFrom]
    split
    · exact .refl
    · rename_i hcancelled
      -- The instruction begins, its program runs, and the rest of the script follows.
      have hbegin : Step env s (s.beginInstruction index i) :=
        .begin s index i (by simpa using hcancelled)
      have hrun := Program.run_steps env i.command.program (s.beginInstruction index i)
      exact (hrun.trans (Worker.settle_steps env (ih (index + 1)) _ _ _ _ _ _ _)).head hbegin

/-- A stretch of the worker changes the stage step by step. -/
theorem Worker.poll_steps (w : Worker) (startDelay : Span) (s : Stage) :
    Steps env s (w.poll env startDelay s).1 := by
  have hcontinue (index : Nat) (s : Stage) : Steps env s (w.continueAt env index s).1 :=
    Worker.runFrom_steps env w.lineDelay index _ s
  rw [Worker.poll]
  cases w.phase with
  | fresh =>
    dsimp only
    split
    · exact hcontinue 0 s
    · exact .refl
    · exact .refl
  | beforeStart wake =>
    dsimp only
    split
    · exact .refl
    · exact hcontinue 0 s
  | inCommand index wake rest =>
    dsimp only
    rw [Worker.resume]
    split
    · exact hcontinue index s
    · exact (Program.run_steps env _ s).trans
        (Worker.settle_steps env (hcontinue (index + 1)) _ _ _ _ _ _ _)
  | afterJump line =>
    dsimp only
    split
    · exact Worker.delayLine_steps env (hcontinue _) _ _ _ s
    · exact hcontinue _ s
  | betweenLines wake next =>
    dsimp only
    split
    · exact .refl
    · exact hcontinue _ s

end Chain

/-! ### The events of a stretch -/

namespace Stage

/-- A stage comes from another without time going by, with `new` events added, the latest
first. -/
structure Added (s : Stage) (new : List (Nat × Event)) (s' : Stage) : Prop where
  now : s'.now = s.now
  history : s'.history = new ++ s.history
  work : ∀ entry ∈ new, entry.1 = s.now ∧ entry.2.isWork = true
  /-- A run that is to stop stays one. -/
  cancelled : s.cancelled = true → s'.cancelled = true
  /-- No instruction begins in a run that is to stop. -/
  silent : s.cancelled = true → ∀ entry ∈ new, entry.2.begun? = none
  /-- After a stop was asked for, the run is to stop. -/
  heard : (∃ entry ∈ new, entry.2 = .stopRequested) → s'.cancelled = true
  /-- After a stop was asked for, no instruction begins. -/
  order : new.Pairwise fun later earlier =>
    earlier.2 = .stopRequested → later.2.begun? = none

/-- Without a change there is no event. -/
theorem Added.refl (s : Stage) : s.Added [] s where
  now := rfl
  history := rfl
  work := by simp
  cancelled := id
  silent := by simp
  heard := by simp
  order := List.Pairwise.nil

/-- The events of two parts of a stretch come one after the other. -/
theorem Added.trans {s s' s'' : Stage} {new new' : List (Nat × Event)}
    (first : s.Added new s') (second : s'.Added new' s'') : s.Added (new' ++ new) s'' where
  now := second.now.trans first.now
  history := by rw [second.history, first.history, List.append_assoc]
  work := by
    intro entry hentry
    rcases List.mem_append.mp hentry with hentry | hentry
    · rw [← first.now]
      exact second.work entry hentry
    · exact first.work entry hentry
  cancelled := fun h => second.cancelled (first.cancelled h)
  silent := by
    intro h entry hentry
    rcases List.mem_append.mp hentry with hentry | hentry
    · exact second.silent (first.cancelled h) entry hentry
    · exact first.silent h entry hentry
  heard := by
    rintro ⟨entry, hentry, hstop⟩
    rcases List.mem_append.mp hentry with hentry | hentry
    · exact second.heard ⟨entry, hentry, hstop⟩
    · exact second.cancelled (first.heard ⟨entry, hentry, hstop⟩)
  order := by
    refine List.pairwise_append.mpr ⟨second.order, first.order, ?_⟩
    -- A stop in the first part has raised the flag before the second part.
    intro later hlater earlier hearlier hstop
    exact second.silent (first.heard ⟨earlier, hearlier, hstop⟩) later hlater

/-- One change adds at most the events that belong to it. -/
theorem Step.added {env : Surroundings} {s s' : Stage} (h : Step env s s') :
    ∃ new, s.Added new s' := by
  cases h with
  | call effect =>
    -- The stop is asked for while the call lasts.
    refine ⟨(if (s.reply env.device effect).stops then [(s.now, .stopRequested)] else []) ++
      [(s.now, .ofAnswer effect (s.reply env.device effect).answer)], ?_⟩
    have hwork : Event.isWork .stopRequested = true := rfl
    have hbegun : Event.begun? .stopRequested = none := rfl
    cases hstops : (s.reply env.device effect).stops <;>
      constructor <;> simp [history_call, hstops, hwork, hbegun]
  -- Drawing and noting a transfer leave no event.
  | draw => exact ⟨[], by constructor <;> simp⟩
  | askJump line => exact ⟨[], by constructor <;> simp⟩
  | askStop => exact ⟨[], by constructor <;> simp⟩
  | begin index i h =>
    refine ⟨[(s.now, .executing i.line i.name)], ?_⟩
    constructor <;> simp [beginInstruction, record, Event.isWork, h]
  | jump source target =>
    refine ⟨[(s.now, .jumped source target)], ?_⟩
    constructor <;> simp [record, Event.isWork, Event.begun?]

/-- A chain of changes adds events of the work at the present time. Once a stop was asked
for, no instruction begins. -/
theorem Steps.added {env : Surroundings} {s s' : Stage} (h : Steps env s s') :
    ∃ new, s.Added new s' := by
  induction h with
  | refl => exact ⟨[], .refl s⟩
  | tail _ hstep ih =>
    obtain ⟨new, hnew⟩ := ih
    obtain ⟨new', hnew'⟩ := hstep.added
    exact ⟨new' ++ new, hnew.trans hnew'⟩

end Stage

end InputScript
