import InputScript.Proofs.LineMachine.Refinement

/-!
# `InputScript.Proofs.Engine.Course`: a run as a transition system

A run goes from point to point: it rests between two stretches of its worker, it is about to
take a line delay or to begin an instruction, it is inside one, or it is over. `Course.Work` lists
once what the worker does at each point, with what guards it. `Course.Step` adds what comes from
outside while the worker rests: the clock moves, a start is turned away, a stop is asked for.

Whatever is done with an engine after it has started a script, the run stands at a point that
it reaches by such steps (`Engine.seen`). So what holds at the beginning of a run and is kept by
each step holds wherever the run is seen.

* `Course.works_poll`: a stretch of the worker is a chain of its steps.
* `Course.Reaches.added`: on its way a run only adds events, none of which is a report.
* `Course.lasting_shows`: what a run keeps holds wherever it is seen, whatever is done.
* `Engine.seen`: where a run stands after any operations.
-/

set_option autoImplicit false

namespace InputScript

/-- One more event comes after those that were added since some earlier ones. -/
theorem Stage.added_record {s : Stage} {earlier part : List (Nat × Event)}
    (h : s.history.reverse = earlier ++ part) (event : Event) :
    (s.record event).history.reverse = earlier ++ (part ++ [(s.now, event)]) := by
  rw [record, List.reverse_cons, h, List.append_assoc]

/-- A split of a list that was made longer by one falls at its end or into the old list. -/
theorem split_concat {α : Type} {l before after : List α} {x y : α}
    (h : l ++ [x] = before ++ y :: after) :
    l = before ∧ x = y ∧ after = [] ∨ ∃ rest, after = rest ++ [x] ∧ l = before ++ y :: rest := by
  rcases List.eq_nil_or_concat' after with rfl | ⟨rest, z, rfl⟩
  · obtain ⟨hl, hx⟩ := List.append_inj' h rfl
    exact .inl ⟨hl, (List.cons.inj hx).1, rfl⟩
  · have hconcat : before ++ y :: (rest ++ [z]) = (before ++ y :: rest) ++ [z] := by simp
    obtain ⟨hl, hx⟩ := List.append_inj' (h.trans hconcat) rfl
    exact .inr ⟨rest, by rw [hx], hl⟩

/-- The course of a run, by what it depends on. -/
structure Course where
  env : Surroundings
  /-- The delay before the first instruction. -/
  startDelay : Span
  script : Script
  lineDelay : Span

/-- Where a run stands. -/
inductive Point where
  /-- The worker has not run yet, sleeps or has given way. -/
  | resting (phase : Phase)
  /-- The line delay before the instruction at an index is next. -/
  | delaying (next : Nat)
  /-- The instruction at an index is next, if there is one. -/
  | before (index : Nat)
  /-- The instruction at an index has a program left to run. -/
  | inside (index : Nat) (program : Program)
  /-- The run has ended. -/
  | ended (outcome : Outcome)

/-- The point to which the progress of a worker leads. -/
def Progress.point : Progress → Point
  | .suspended phase => .resting phase
  | .ended outcome => .ended outcome
  | .crashed => .ended .crashed

/-- Whether a phase inside an instruction lies inside one of the script. -/
def Phase.LiesIn (script : Script) : Phase → Prop
  | .inCommand index _ _ => ∃ i, script.instructions[index]? = some i
  | _ => True

namespace Course

/-- The state of a run: the stage, and where the run stands. -/
structure State where
  stage : Stage
  point : Point

/-- The time at which a run ended, and how, if it has. -/
def State.ending? (state : State) : Option (Nat × Outcome) :=
  match state.point with
  | .ended outcome => some (state.stage.now, outcome)
  | _ => none

/-- How a run ended is known where it is over. -/
theorem State.ending?_eq_some_iff {state : State} {time : Nat} {outcome : Outcome} :
    state.ending? = some (time, outcome) ↔
      state.point = .ended outcome ∧ state.stage.now = time := by
  rw [State.ending?]
  split
  · rename_i hpoint
    rw [hpoint]
    simp [and_comm]
  · rename_i hpoint
    constructor
    · intro h
      cases h
    · rintro ⟨h, -⟩
      exact absurd h (hpoint outcome)

/-- Whether a run can be seen in a state from outside: it rests or is over. -/
def State.IsVisible (state : State) : Prop :=
  match state.point with
  | .resting _ => True
  | .ended _ => True
  | _ => False

variable (r : Course)

/-- The worker of the run in a phase. -/
def worker (phase : Phase) : Worker :=
  ⟨r.script, r.lineDelay, phase⟩

/-- What the worker does next. -/
inductive Work : State → State → Prop where
  /-- There is no start delay, or none any more. -/
  | skipStart (s : Stage) (h : s.cancelled = true ∨ r.startDelay.isZero = true) :
      Work ⟨s, .resting .fresh⟩ ⟨s, .before 0⟩
  | delayStart (s : Stage) (hgoes : s.cancelled = false) (hlong : r.startDelay.isZero = false) :
      Work ⟨s, .resting .fresh⟩
        ⟨s, .resting (.beforeStart (s.now + r.env.timer.wait r.startDelay))⟩
  | wakeToStart (s : Stage) (wake : Nat) (h : s.cancelled = true ∨ wake ≤ s.now) :
      Work ⟨s, .resting (.beforeStart wake)⟩ ⟨s, .before 0⟩
  /-- A command goes on after a pause. -/
  | resume (s : Stage) (index wake : Nat) (rest : Bool → Program) (i : Instruction)
      (hi : r.script.instructions[index]? = some i) (h : s.cancelled = true ∨ wake ≤ s.now) :
      Work ⟨s, .resting (.inCommand index wake rest)⟩
        ⟨s, .inside index (rest (Sleep.isFull s.cancelled (r.env.tie s.now) wake s.now))⟩
  /-- A jump leads to an instruction. -/
  | land (s : Stage) (line : Nat) (h : r.script.indexForLine line < r.script.length) :
      Work ⟨s, .resting (.afterJump line)⟩ ⟨s, .delaying (r.script.indexForLine line)⟩
  /-- A jump leads behind the last instruction. -/
  | landBehind (s : Stage) (line : Nat) (h : r.script.length ≤ r.script.indexForLine line) :
      Work ⟨s, .resting (.afterJump line)⟩ ⟨s, .before (r.script.indexForLine line)⟩
  | wakeToNext (s : Stage) (wake next : Nat) (h : s.cancelled = true ∨ wake ≤ s.now) :
      Work ⟨s, .resting (.betweenLines wake next)⟩ ⟨s, .before next⟩
  | skipDelay (s : Stage) (next : Nat) (h : s.cancelled = true ∨ r.lineDelay.isZero = true) :
      Work ⟨s, .delaying next⟩ ⟨s, .before next⟩
  | delay (s : Stage) (next : Nat) (hgoes : s.cancelled = false)
      (hlong : r.lineDelay.isZero = false) :
      Work ⟨s, .delaying next⟩
        ⟨s, .resting (.betweenLines (s.now + r.env.timer.wait r.lineDelay) next)⟩
  /-- No instruction begins in a run that is to stop. -/
  | halt (s : Stage) (index : Nat) (h : s.cancelled = true) :
      Work ⟨s, .before index⟩ ⟨s, .ended .stopped⟩
  | finish (s : Stage) (index : Nat) (hgoes : s.cancelled = false)
      (hnone : r.script.instructions[index]? = none) :
      Work ⟨s, .before index⟩ ⟨s, .ended .completed⟩
  | begin (s : Stage) (index : Nat) (i : Instruction) (hgoes : s.cancelled = false)
      (hi : r.script.instructions[index]? = some i) :
      Work ⟨s, .before index⟩ ⟨s.beginInstruction index i, .inside index i.command.program⟩
  /-- A command pauses. -/
  | pause (s s' : Stage) (index : Nat) (i : Instruction) (p : Program) (wake : Nat)
      (rest : Bool → Program) (hi : r.script.instructions[index]? = some i)
      (hrun : p.run r.env s = (s', .asleep wake rest)) :
      Work ⟨s, .inside index p⟩ ⟨s', .resting (.inCommand index wake rest)⟩
  | fail (s s' : Stage) (index : Nat) (i : Instruction) (p : Program) (cause : String)
      (hi : r.script.instructions[index]? = some i)
      (hrun : p.run r.env s = (s', .failed cause)) :
      Work ⟨s, .inside index p⟩ ⟨s', .ended (.failed (.effect i.name i.line cause))⟩
  | crash (s s' : Stage) (index : Nat) (i : Instruction) (p : Program)
      (hi : r.script.instructions[index]? = some i) (hrun : p.run r.env s = (s', .crashed)) :
      Work ⟨s, .inside index p⟩ ⟨s', .ended .crashed⟩
  /-- A command returns and has asked for a jump. -/
  | jump (s s' : Stage) (index : Nat) (i : Instruction) (p : Program) (target : Nat)
      (hi : r.script.instructions[index]? = some i) (hrun : p.run r.env s = (s', .returned))
      (htransfer : s'.transfer = some (.line target)) :
      Work ⟨s, .inside index p⟩
        ⟨s'.record (.jumped i.line target), .resting (.afterJump target)⟩
  /-- A command returns and has asked to stop. -/
  | stop (s s' : Stage) (index : Nat) (i : Instruction) (p : Program)
      (hi : r.script.instructions[index]? = some i) (hrun : p.run r.env s = (s', .returned))
      (htransfer : s'.transfer = some .stop) : Work ⟨s, .inside index p⟩ ⟨s', .ended .stopped⟩
  /-- A command returns and hands over to the next one. -/
  | pass (s s' : Stage) (index : Nat) (i : Instruction) (p : Program)
      (hi : r.script.instructions[index]? = some i) (hrun : p.run r.env s = (s', .returned))
      (htransfer : s'.transfer = none) (hmore : index + 1 < r.script.length) :
      Work ⟨s, .inside index p⟩ ⟨s', .delaying (index + 1)⟩
  /-- The last command returns. -/
  | passLast (s s' : Stage) (index : Nat) (i : Instruction) (p : Program)
      (hi : r.script.instructions[index]? = some i) (hrun : p.run r.env s = (s', .returned))
      (htransfer : s'.transfer = none) (hlast : r.script.length ≤ index + 1) :
      Work ⟨s, .inside index p⟩ ⟨s', .before (index + 1)⟩

/-- What happens next in a run. -/
inductive Step : State → State → Prop where
  | work (state state' : State) (h : r.Work state state') : Step state state'
  /-- The clock moves while the worker sleeps, and not past the time that it sleeps for. -/
  | tick (s : Stage) (phase : Phase) (wake time : Nat) (hwake : phase.wake? = some wake)
      (hgoes : s.cancelled = false) (hfrom : s.now ≤ time) (hto : time ≤ wake) :
      Step ⟨s, .resting phase⟩ ⟨{ s with now := time }, .resting phase⟩
  /-- Another start is turned away. -/
  | turnAway (s : Stage) (phase : Phase) (event : Event)
      (h : event = .startIgnored ∨ event = .startRefused) :
      Step ⟨s, .resting phase⟩ ⟨s.record event, .resting phase⟩
  /-- A stop is asked for from outside. -/
  | cancel (s : Stage) (phase : Phase) :
      Step ⟨s, .resting phase⟩ ⟨s.requestStop, .resting phase⟩

/-- Any number of steps of the worker. -/
abbrev Works : State → State → Prop :=
  Relation.ReflTransGen r.Work

/-- Any number of steps. -/
abbrev Reaches : State → State → Prop :=
  Relation.ReflTransGen r.Step

/-! ### A stretch is a chain of steps -/

/-- The state to which a stretch leads. -/
def reached (result : Stage × Progress) : State :=
  ⟨result.1, result.2.point⟩

variable {r}

section Parts

variable {goOn : Stage → Stage × Progress} {next : Nat}
  (hgoOn : ∀ s, r.Works ⟨s, .before next⟩ (reached (goOn s)))

include hgoOn

/-- Taking a line delay is a step, or leads to the next instruction. -/
theorem works_delayLine (s : Stage) :
    r.Works ⟨s, .delaying next⟩
      (reached (Worker.delayLine r.env.timer r.lineDelay next goOn s)) := by
  rw [Worker.delayLine]
  have hsleep := Sleep.begins r.env.timer s.cancelled r.lineDelay s.now
  generalize Sleep.begin r.env.timer s.cancelled r.lineDelay s.now = sleep at hsleep ⊢
  cases hsleep with
  | cut h => exact (Relation.ReflTransGen.single (.halt s next h)).head (.skipDelay s next (.inl h))
  | skipped _ h => exact (hgoOn s).head (.skipDelay s next (.inr h))
  | lasts hgoes hlong => exact .single (.delay s next hgoes hlong)

end Parts

/-- What follows a program that came to a halt is a step, and then the rest of the script. -/
theorem works_settle {goOn : Stage → Stage × Progress} {index : Nat} {i : Instruction}
    (hgoOn : ∀ s, r.Works ⟨s, .before (index + 1)⟩ (reached (goOn s)))
    (hi : r.script.instructions[index]? = some i) {isLast : Bool}
    (hlast : isLast = true ↔ r.script.length ≤ index + 1) {p : Program} {s s' : Stage}
    {halt : Halt} (hrun : p.run r.env s = (s', halt)) :
    r.Works ⟨s, .inside index p⟩
      (reached (Worker.settle r.env.timer r.lineDelay index i isLast goOn s' halt)) := by
  cases halt with
  | asleep wake rest => exact .single (.pause s s' index i p wake rest hi hrun)
  | failed cause => exact .single (.fail s s' index i p cause hi hrun)
  | crashed => exact .single (.crash s s' index i p hi hrun)
  | returned =>
    rw [Worker.settle]
    split
    · rename_i target htransfer
      exact .single (.jump s s' index i p target hi hrun htransfer)
    · rename_i htransfer
      exact .single (.stop s s' index i p hi hrun htransfer)
    · rename_i htransfer
      -- There is a line delay before the next instruction, and none after the last.
      split
      · rename_i hend
        exact (hgoOn s').head (.passLast s s' index i p hi hrun htransfer (hlast.mp hend))
      · rename_i hend
        have hmore : index + 1 < r.script.length :=
          Nat.lt_of_not_le fun h => hend (hlast.mpr h)
        exact (works_delayLine hgoOn s').head (.pass s s' index i p hi hrun htransfer hmore)

/-- Whether no instruction is left behind an index. -/
theorem isEmpty_drop_iff (script : Script) (index : Nat) :
    (script.instructions.drop index).isEmpty = true ↔ script.length ≤ index := by
  rw [List.isEmpty_iff, List.drop_eq_nil_iff]
  rfl

/-- Running instructions is a chain of steps. -/
theorem works_runFrom {index : Nat} {is : List Instruction}
    (his : r.script.instructions.drop index = is) (s : Stage) :
    r.Works ⟨s, .before index⟩ (reached (Worker.runFrom r.env r.lineDelay index is s)) := by
  induction is generalizing index s with
  | nil =>
    have hnone : r.script.instructions[index]? = none :=
      List.getElem?_eq_none (List.drop_eq_nil_iff.mp his)
    rw [Worker.runFrom]
    cases hcancelled : s.cancelled with
    | true => exact .single (.halt s index hcancelled)
    | false => exact .single (.finish s index hcancelled hnone)
  | cons i rest ih =>
    obtain ⟨hi, hrest⟩ := Script.drop_eq_cons_iff.mp his
    rw [Worker.runFrom]
    split
    · rename_i hcancelled
      exact .single (.halt s index hcancelled)
    · rename_i hcancelled
      have hlast : rest.isEmpty = true ↔ r.script.length ≤ index + 1 :=
        hrest ▸ isEmpty_drop_iff r.script (index + 1)
      exact (works_settle (ih hrest) hi hlast rfl).head
        (.begin s index i (by simpa using hcancelled) hi)

/-- A worker that can go on was asked to stop, or its time has come. -/
theorem due_of_isReady {phase : Phase} {cancelled : Bool} {now wake : Nat}
    (hready : phase.isReady cancelled now = true) (hwake : phase.wake? = some wake) :
    cancelled = true ∨ wake ≤ now := by
  simpa [Phase.isReady, hwake] using hready

/-- A stretch of the worker is a chain of steps. -/
theorem works_poll {phase : Phase} {s : Stage} (hlies : phase.LiesIn r.script)
    (hready : phase.isReady s.cancelled s.now = true) :
    r.Works ⟨s, .resting phase⟩ (reached ((r.worker phase).poll r.env r.startDelay s)) := by
  let w : Worker := ⟨r.script, r.lineDelay, phase⟩
  have hcontinue (index : Nat) (s : Stage) : r.Works ⟨s, .before index⟩
      (reached (w.continueAt r.env index s)) := works_runFrom rfl s
  show r.Works _ (reached (w.poll r.env r.startDelay s))
  rw [Worker.poll]
  cases phase with
  | fresh =>
    dsimp only [w]
    have hsleep := Sleep.begins r.env.timer s.cancelled r.startDelay s.now
    generalize Sleep.begin r.env.timer s.cancelled r.startDelay s.now = sleep at hsleep ⊢
    cases hsleep with
    | cut h => exact (Relation.ReflTransGen.single (.halt s 0 h)).head (.skipStart s (.inl h))
    | skipped _ h => exact (hcontinue 0 s).head (.skipStart s (.inr h))
    | lasts hgoes hlong => exact .single (.delayStart s hgoes hlong)
  | beforeStart wake =>
    dsimp only [w]
    have hdue := due_of_isReady hready rfl
    split
    · rename_i h
      exact (Relation.ReflTransGen.single (.halt s 0 h)).head (.wakeToStart s wake hdue)
    · exact (hcontinue 0 s).head (.wakeToStart s wake hdue)
  | inCommand index wake rest =>
    obtain ⟨i, hi⟩ := hlies
    dsimp only [w]
    rw [Worker.resume, Script.drop_eq_cons_iff.mpr ⟨hi, rfl⟩]
    exact (works_settle (hcontinue (index + 1)) hi (isEmpty_drop_iff _ _) rfl).head
      (.resume s index wake rest i hi (due_of_isReady hready rfl))
  | afterJump line =>
    dsimp only [w]
    split
    · rename_i hinside
      exact (works_delayLine (hcontinue _) s).head (.land s line hinside)
    · rename_i hbehind
      exact (hcontinue _ s).head (.landBehind s line (Nat.le_of_not_lt hbehind))
  | betweenLines wake next =>
    dsimp only [w]
    have hdue := due_of_isReady hready rfl
    split
    · rename_i h
      exact (Relation.ReflTransGen.single (.halt s next h)).head (.wakeToNext s wake next hdue)
    · exact (hcontinue next s).head (.wakeToNext s wake next hdue)

/-! ### What a run adds on its way -/

/-- A program adds events of the work. -/
theorem added_run {p : Program} {s s' : Stage} {halt : Halt}
    (hrun : p.run r.env s = (s', halt)) : ∃ part,
    s'.history.reverse = s.history.reverse ++ part ∧
      ∀ entry ∈ part, entry.2.isReport = false := by
  obtain ⟨new, hnew⟩ := (p.run_steps r.env s).added
  rw [hrun] at hnew
  refine ⟨new.reverse, ?_, fun entry hentry => (hnew.quiet entry hentry).1⟩
  rw [hnew.history, List.reverse_append]

/-- A step of the worker adds events, none of which is a report. -/
theorem Work.added {state state' : State} (h : r.Work state state') : ∃ part,
    state'.stage.history.reverse = state.stage.history.reverse ++ part ∧
      ∀ entry ∈ part, entry.2.isReport = false := by
  cases h with
  | begin s index i =>
    exact ⟨[(s.now, .executing i.line i.name)], List.reverse_cons, by simp [Event.isReport]⟩
  | jump s s' index i p target hi hrun =>
    obtain ⟨part, hpart, hquiet⟩ := added_run hrun
    refine ⟨part ++ [(s'.now, .jumped i.line target)], Stage.added_record hpart _, ?_⟩
    intro entry hentry
    rcases List.mem_append.mp hentry with hentry | hentry
    · exact hquiet entry hentry
    · rw [List.mem_singleton.mp hentry]
      rfl
  | pause _ _ _ _ _ _ _ _ hrun | fail _ _ _ _ _ _ _ hrun | crash _ _ _ _ _ _ hrun
  | stop _ _ _ _ _ _ hrun | pass _ _ _ _ _ _ hrun | passLast _ _ _ _ _ _ hrun =>
    exact added_run hrun
  -- The other steps leave the history as it is.
  | _ => exact ⟨[], (List.append_nil _).symm, by simp⟩

/-- A step of a run adds events, none of which is a report. -/
theorem Step.added {state state' : State} (h : r.Step state state') : ∃ part,
    state'.stage.history.reverse = state.stage.history.reverse ++ part ∧
      ∀ entry ∈ part, entry.2.isReport = false := by
  cases h with
  | work _ _ h => exact h.added
  | tick => exact ⟨[], (List.append_nil _).symm, by simp⟩
  | turnAway s phase event h =>
    refine ⟨[(s.now, event)], List.reverse_cons, ?_⟩
    rcases h with rfl | rfl <;> simp [Event.isReport]
  | cancel s phase =>
    exact ⟨[(s.now, .stopRequested)], List.reverse_cons, by simp [Event.isReport]⟩

/-- On its way a run adds events, none of which is a report. -/
theorem Reaches.added {state state' : State} (h : r.Reaches state state') : ∃ part,
    state'.stage.history.reverse = state.stage.history.reverse ++ part ∧
      ∀ entry ∈ part, entry.2.isReport = false := by
  induction h with
  | refl => exact ⟨[], (List.append_nil _).symm, by simp⟩
  | tail _ hstep ih =>
    obtain ⟨part, hpart, hquiet⟩ := ih
    obtain ⟨part', hpart', hquiet'⟩ := hstep.added
    refine ⟨part ++ part', by rw [hpart', hpart, List.append_assoc], ?_⟩
    intro entry hentry
    rcases List.mem_append.mp hentry with hentry | hentry
    · exact hquiet entry hentry
    · exact hquiet' entry hentry

end Course

/-! ### What an engine counts -/

/-- The device is never asked less often. -/
theorem Stage.Steps.calls_le {env : Surroundings} {s s' : Stage} (h : Stage.Steps env s s') :
    s.calls ≤ s'.calls := by
  induction h with
  | refl => exact Nat.le_refl _
  | tail _ hstep ih =>
    refine Nat.le_trans ih ?_
    cases hstep with
    | call => exact (Stage.calls_call ..).symm ▸ Nat.le_succ _
    | _ => exact Nat.le_refl _

namespace Engine

/-- At most one run has not ended yet. -/
theorem runs_le (e : Engine) : e.runs ≤ e.outcomes.length + 1 := by
  cases h : e.running <;> simp [runs, isRunning, h]

/-- Where a run has ended all runs have. -/
theorem runs_close (e : Engine) (stage : Stage) (reported told : Outcome) :
    (e.close stage reported told).runs = e.outcomes.length + 1 := by
  simp [runs, isRunning]

/-- The report of the end of a run asks the device for nothing. -/
theorem calls_close (e : Engine) (stage : Stage) (reported told : Outcome) :
    (e.close stage reported told).stage.calls = stage.calls := by
  show ({ e with stage := stage }.report reported).stage.calls = stage.calls
  rw [report_eq]

/-- The device is not asked less often after a poll. -/
theorem calls_poll (e : Engine) : e.stage.calls ≤ e.poll.stage.calls := by
  by_cases hready : e.isReady = true
  · obtain ⟨w, stage, progress, new, hs, hpoll⟩ := exists_stretched hready
    have hcalls := (w.poll_steps e.surroundings e.startDelay e.stage).calls_le
    rw [hs.poll] at hcalls
    rw [hpoll]
    cases progress with
    | suspended phase => exact hcalls
    | ended outcome => exact (calls_close ..).symm ▸ hcalls
    | crashed => exact (calls_close ..).symm ▸ hcalls
  · have hsame := poll_of_waits (e := e) (by simpa using hready)
    exact hsame.symm ▸ Nat.le_refl _

/-- No run is forgotten in a poll. -/
theorem runs_poll (e : Engine) : e.runs ≤ e.poll.runs := by
  have hpolled := e.polled
  generalize e.poll = after at hpolled ⊢
  cases hpolled with
  | waits => exact Nat.le_refl _
  | suspends w stage phase new h => exact Nat.le_refl _
  | ends w stage outcome new h => exact (runs_close ..).symm ▸ runs_le e
  | crashes w stage new h => exact (runs_close ..).symm ▸ runs_le e

end Engine

namespace Course

/-! ### Where a run is seen -/

variable (r : Course)

/-- Where the run that began in `started` is seen: at a state that it reaches, with the events
that it has added. -/
structure Seen (started e : Engine) (state : State) (part : List (Nat × Event)) : Prop where
  reaches : r.Reaches ⟨started.stage, .resting .fresh⟩ state
  visible : state.IsVisible
  history : state.stage.history.reverse = started.events ++ part
  runSoFar : RunSoFar started e part state.ending?
  calls_le : state.stage.calls ≤ e.stage.calls
  /-- As long as no other run has begun, the device was last asked in this one. -/
  calls_eq : e.runs = started.runs → e.stage.calls = state.stage.calls

/-- The run that began in `started` is active. -/
structure Active (started : Engine) (phase : Phase) (e : Engine) : Prop where
  surroundings : e.surroundings = r.env
  startDelay : e.startDelay = r.startDelay
  running : e.running = true
  worker : e.worker = some (r.worker phase)
  lies : phase.LiesIn r.script
  reaches : r.Reaches ⟨started.stage, .resting .fresh⟩ ⟨e.stage, .resting phase⟩
  runs : e.runs = started.runs

/-- The run that began in `started` has ended, and perhaps another one has begun since. -/
structure Ended (started : Engine) (s : Stage) (outcome : Outcome) (e : Engine) : Prop where
  reaches : r.Reaches ⟨started.stage, .resting .fresh⟩ ⟨s, .ended outcome⟩
  events : ∃ rest, e.events = s.history.reverse ++ (s.now, .ended outcome) :: rest
  calls_le : s.calls ≤ e.stage.calls
  since : started.runs < e.runs ∨
    e.worker = none ∧ e.running = false ∧ e.stage.calls = s.calls ∧ e.runs = started.runs

/-- The run that began in `started` is active or has ended. -/
def Goes (started e : Engine) : Prop :=
  (∃ phase, r.Active started phase e) ∨ ∃ s outcome, r.Ended started s outcome e

/-- The run that began in `started` is active or has ended, and is seen in a state with a
property. -/
def Shows (P : State → Prop) (started e : Engine) : Prop :=
  (∃ phase, r.Active started phase e ∧ P ⟨e.stage, .resting phase⟩) ∨
    ∃ s outcome, r.Ended started s outcome e ∧ P ⟨s, .ended outcome⟩

/-- What a run keeps on its way from a state as long as no stop is asked for from outside. -/
structure Kept (origin : State) (P : State → Prop) : Prop where
  work : ∀ {state state' : State}, r.Reaches origin state → r.Work state state' → P state → P state'
  tick : ∀ (s : Stage) (phase : Phase) (time : Nat), P ⟨s, .resting phase⟩ →
    P ⟨{ s with now := time }, .resting phase⟩
  turnAway : ∀ (s : Stage) (phase : Phase) {event : Event},
    event = .startIgnored ∨ event = .startRefused → P ⟨s, .resting phase⟩ →
      P ⟨s.record event, .resting phase⟩

variable {r} {started e e' : Engine} {origin : State} {P : State → Prop}

/-- After the end of the run, what happens later only adds events. -/
theorem Ended.later {s : Stage} {outcome : Outcome} (h : r.Ended started s outcome e)
    {added : List (Nat × Event)} (hevents : e'.events = e.events ++ added)
    (hcalls : e.stage.calls ≤ e'.stage.calls)
    (hsince : started.runs < e'.runs ∨ e'.worker = e.worker ∧ e'.running = e.running ∧
      e'.stage.calls = e.stage.calls ∧ e'.runs = e.runs) : r.Ended started s outcome e' where
  reaches := h.reaches
  events := by
    obtain ⟨rest, hrest⟩ := h.events
    refine ⟨rest ++ added, ?_⟩
    rw [hevents, hrest, List.append_assoc, List.cons_append]
  calls_le := Nat.le_trans h.calls_le hcalls
  since := by
    rcases hsince with hmore | ⟨hworker, hrunning, hcalls, hruns⟩
    · exact .inl hmore
    · rw [hworker, hrunning, hcalls, hruns]
      exact h.since

/-- After the end of the run, what touches neither the worker nor the device only adds events. -/
theorem Ended.untouched {s : Stage} {outcome : Outcome} (h : r.Ended started s outcome e)
    {added : List (Nat × Event)} (hevents : e'.events = e.events ++ added)
    (hworker : e'.worker = e.worker) (hrunning : e'.running = e.running)
    (hcalls : e'.stage.calls = e.stage.calls) (hruns : e'.runs = e.runs) :
    r.Ended started s outcome e' :=
  h.later hevents (Nat.le_of_eq hcalls.symm) (.inr ⟨hworker, hrunning, hcalls, hruns⟩)

/-- The run has still ended after a poll. -/
theorem Ended.poll {s : Stage} {outcome : Outcome} (h : r.Ended started s outcome e) :
    r.Ended started s outcome e.poll := by
  obtain ⟨added, hadded⟩ := e.events_poll
  refine h.later hadded (Engine.calls_poll e) ?_
  rcases h.since with hmore | ⟨hworker, -⟩
  · exact .inl (Nat.lt_of_lt_of_le hmore (Engine.runs_poll e))
  · -- Without a worker a poll does nothing.
    have hnothing : e.poll = e := by rw [Engine.poll, hworker]
    rw [hnothing]
    exact .inr ⟨rfl, rfl, rfl, rfl⟩

/-- The run has still ended after a start, which may begin another one. -/
theorem Ended.start {s : Stage} {outcome : Outcome} (h : r.Ended started s outcome e)
    (script : Script) (lineDelay : Span) :
    r.Ended started s outcome (e.start script lineDelay).1 := by
  by_cases hrunning : e.running = true
  · rw [Engine.start_of_running hrunning]
    exact h.untouched (e.events_record _) rfl rfl rfl rfl
  · have hidle : e.running = false := by simpa using hrunning
    rw [Engine.start_of_idle hidle]
    refine h.later (e.events_launch script lineDelay) (Nat.le_refl _) (.inl ?_)
    have hruns : e.runs < (e.launch script lineDelay).runs := by
      simp [Engine.runs, Engine.isRunning, hidle, Engine.launch]
    rcases h.since with hmore | ⟨-, -, -, hsame⟩
    · exact Nat.lt_trans hmore hruns
    · exact hsame ▸ hruns

/-- The run has still ended after a stop, which may be meant for another one. -/
theorem Ended.stop {s : Stage} {outcome : Outcome} (h : r.Ended started s outcome e) :
    r.Ended started s outcome e.stop := by
  by_cases hrunning : e.running = true
  · rw [Engine.stop_of_running hrunning]
    exact h.untouched (e.events_record .stopRequested) rfl rfl rfl rfl
  · rw [Engine.stop_of_idle (by simpa [Engine.isRunning] using hrunning)]
    exact h

/-- A step that leaves the worker where it is keeps the run active. -/
theorem Active.step {phase : Phase} (h : r.Active started phase e) {stage : Stage}
    (hstep : r.Step ⟨e.stage, .resting phase⟩ ⟨stage, .resting phase⟩) :
    r.Active started phase { e with stage := stage } where
  surroundings := h.surroundings
  startDelay := h.startDelay
  running := h.running
  worker := h.worker
  lies := h.lies
  reaches := h.reaches.tail hstep
  runs := h.runs

/-- Where the worker comes to rest inside an instruction there is one. -/
theorem Works.lies {state state' : State} (h : r.Works state state')
    (hlies : ∀ phase, state.point = .resting phase → phase.LiesIn r.script) :
    ∀ phase, state'.point = .resting phase → phase.LiesIn r.script := by
  induction h with
  | refl => exact hlies
  | tail _ hstep ih =>
    intro phase hphase
    cases hstep with
    | pause _ _ index i _ wake rest hi =>
      cases hphase
      exact ⟨i, hi⟩
    | delayStart | delay | jump =>
      cases hphase
      trivial
    | _ => cases hphase

/-- The steps of the worker are steps of the run. -/
theorem Works.reaches {state state' : State} (h : r.Works state state') :
    r.Reaches state state' :=
  Relation.ReflTransGen.mono (fun _ _ hwork => .work _ _ hwork) _ _ h

/-- What a run keeps, a stretch of its worker keeps. -/
theorem Kept.works (hP : r.Kept origin P) {state state' : State} (hreaches : r.Reaches origin state)
    (h : r.Works state state') (hstate : P state) : P state' := by
  induction h with
  | refl => exact hstate
  | tail hworks hwork ih => exact hP.work (hreaches.trans (Works.reaches hworks)) hwork ih

/-- A poll takes an active run on, or the run ends in it. -/
theorem Active.poll {phase : Phase} (h : r.Active started phase e)
    (hP : r.Kept ⟨started.stage, .resting .fresh⟩ P)
    (hstate : P ⟨e.stage, .resting phase⟩) (hready : e.isReady = true) :
    r.Shows P started e.poll := by
  obtain ⟨w, stage, progress, new, hs, hpoll⟩ := Engine.exists_stretched hready
  obtain rfl : w = r.worker phase := Option.some.inj (hs.worker.symm.trans h.worker)
  -- The stretch of the worker is a chain of steps from where the run stands.
  have hstretch := works_poll h.lies hs.ready
  rw [← h.surroundings, ← h.startDelay, hs.poll] at hstretch
  have hreaches := h.reaches.trans hstretch.reaches
  have hreached := hP.works h.reaches hstretch hstate
  have hended (outcome told : Outcome)
      (hreaches : r.Reaches ⟨started.stage, .resting .fresh⟩ ⟨stage, .ended outcome⟩) :
      r.Ended started stage outcome (e.close stage outcome told) := by
    refine ⟨hreaches, ⟨_, Engine.events_close ..⟩, Nat.le_of_eq (Engine.calls_close ..).symm,
      .inr ⟨rfl, Engine.running_close .., Engine.calls_close .., ?_⟩⟩
    rw [Engine.runs_close, ← h.runs, Engine.runs, Engine.isRunning, if_pos h.running]
  rw [hpoll]
  cases progress with
  | suspended phase' =>
    refine .inl ⟨phase', ⟨h.surroundings, h.startDelay, h.running, rfl, ?_, hreaches, h.runs⟩,
      hreached⟩
    refine hstretch.lies ?_ phase' rfl
    intro phase hphase
    cases hphase
    exact h.lies
  | ended outcome => exact .inr ⟨stage, outcome, hended outcome outcome hreaches, hreached⟩
  | crashed => exact .inr ⟨stage, .crashed, hended .crashed _ hreaches, hreached⟩

/-- Whatever is done with an engine, the run is seen in a state with a property that it keeps,
where the operations that are admitted leave out a stop if a stop may not be asked for. -/
theorem lasting_shows {admitted : Operation → Prop} (started : Engine)
    (hP : r.Kept ⟨started.stage, .resting .fresh⟩ P)
    (hcancel : admitted .stop → ∀ (s : Stage) (phase : Phase), P ⟨s, .resting phase⟩ →
      P ⟨s.requestStop, .resting phase⟩) :
    Engine.Lasting admitted (r.Shows P started) where
  poll := by
    rintro e (⟨phase, h, hstate⟩ | ⟨s, outcome, h, hstate⟩)
    · by_cases hready : e.isReady = true
      · exact h.poll hP hstate hready
      · rw [Engine.poll_of_waits (by simpa using hready)]
        exact .inl ⟨phase, h, hstate⟩
    · exact .inr ⟨s, outcome, h.poll, hstate⟩
  setClock := by
    rintro e time (⟨phase, h, hstate⟩ | ⟨s, outcome, h, hstate⟩) hwaits hfrom hto
    · -- The worker waits, so it sleeps and the run is not to stop.
      simp only [Engine.isReady, h.worker, worker, Phase.isReady] at hwaits
      cases hwake : phase.wake? with
      | none => simp [hwake] at hwaits
      | some wake =>
        simp only [hwake, Bool.or_eq_false_iff] at hwaits
        refine .inl ⟨phase, h.step (.tick e.stage phase wake time hwake hwaits.1 hfrom ?_),
          hP.tick e.stage phase time hstate⟩
        apply hto
        simp [Engine.wake?, h.worker, worker, hwake]
    · exact .inr ⟨s, outcome, h.untouched (List.append_nil _).symm rfl rfl rfl rfl, hstate⟩
  start := by
    rintro e script lineDelay - (⟨phase, h, hstate⟩ | ⟨s, outcome, h, hstate⟩)
    · rw [Engine.start_of_running h.running]
      exact .inl ⟨phase, h.step (.turnAway e.stage phase _ (.inl rfl)),
        hP.turnAway e.stage phase (.inl rfl) hstate⟩
    · exact .inr ⟨s, outcome, h.start script lineDelay, hstate⟩
  startOutside := by
    rintro e (⟨phase, h, hstate⟩ | ⟨s, outcome, h, hstate⟩)
    · exact .inl ⟨phase, h.step (.turnAway e.stage phase _ (.inr rfl)),
        hP.turnAway e.stage phase (.inr rfl) hstate⟩
    · exact .inr ⟨s, outcome, h.untouched (e.events_record _) rfl rfl rfl rfl, hstate⟩
  stop := by
    rintro e hstop (⟨phase, h, hstate⟩ | ⟨s, outcome, h, hstate⟩)
    · rw [Engine.stop_of_running h.running]
      exact .inl ⟨phase, h.step (.cancel e.stage phase), hcancel hstop e.stage phase hstate⟩
    · exact .inr ⟨s, outcome, h.stop, hstate⟩
  onFinished := by
    rintro e callback (⟨phase, h, hstate⟩ | ⟨s, outcome, h, hstate⟩)
    · exact .inl ⟨phase, ⟨h.surroundings, h.startDelay, h.running, h.worker, h.lies, h.reaches,
        h.runs⟩, hstate⟩
    · exact .inr ⟨s, outcome, h.untouched (List.append_nil _).symm rfl rfl rfl rfl, hstate⟩

/-- An active run is seen where its worker rests. -/
theorem Active.seen {phase : Phase} (h : r.Active started phase e) :
    ∃ part, r.Seen started e ⟨e.stage, .resting phase⟩ part := by
  obtain ⟨part, hpart, hquiet⟩ := h.reaches.added
  exact ⟨part, h.reaches, trivial, hpart, ⟨hquiet, h.running, hpart⟩, Nat.le_refl _, fun _ => rfl⟩

/-- A run that has ended is seen at its end. -/
theorem Ended.seen {s : Stage} {outcome : Outcome} (h : r.Ended started s outcome e) :
    ∃ part, r.Seen started e ⟨s, .ended outcome⟩ part := by
  obtain ⟨part, hpart, hquiet⟩ := h.reaches.added
  obtain ⟨rest, hrest⟩ := h.events
  have hevents : e.events = started.events ++ (part ++ (s.now, .ended outcome) :: rest) := by
    rw [hrest, hpart, List.append_assoc]
    rfl
  refine ⟨part, h.reaches, trivial, hpart, ⟨hquiet, rest, hevents⟩, h.calls_le, ?_⟩
  intro hruns
  rcases h.since with hmore | ⟨-, -, hcalls, -⟩
  · omega
  · exact hcalls

/-- A run that is seen in a state with a property is seen at a state that it reaches. -/
theorem Shows.seen (h : r.Shows P started e) :
    ∃ state part, r.Seen started e state part ∧ P state := by
  rcases h with ⟨phase, h, hstate⟩ | ⟨s, outcome, h, hstate⟩
  · obtain ⟨part, hseen⟩ := h.seen
    exact ⟨_, part, hseen, hstate⟩
  · obtain ⟨part, hseen⟩ := h.seen
    exact ⟨_, part, hseen, hstate⟩

/-- A run that goes on or has ended is seen. -/
theorem goes_eq : r.Goes started = r.Shows (fun _ => True) started := by
  funext e
  simp [Goes, Shows]

/-- Whatever is done with an engine, the run goes on or has ended. -/
theorem lasting_goes (started : Engine) : Engine.Lasting (fun _ => True) (r.Goes started) := by
  rw [goes_eq]
  exact lasting_shows started ⟨fun _ _ h => h, fun _ _ _ h => h, fun _ _ _ _ h => h⟩
    fun _ _ _ h => h

/-- A run that goes on or has ended is seen at a state that it reaches. -/
theorem Goes.seen (h : r.Goes started e) : ∃ state part, r.Seen started e state part := by
  rw [goes_eq] at h
  obtain ⟨state, part, hseen, -⟩ := Shows.seen h
  exact ⟨state, part, hseen⟩

end Course

namespace Engine

/-- The run that begins when an engine starts a script. -/
def courseOf (e : Engine) (script : Script) (lineDelay : Span) : Course :=
  ⟨e.surroundings, e.startDelay, script, lineDelay⟩

/-- A run that has just begun is active. -/
theorem active_launch (e : Engine) (script : Script) (lineDelay : Span) :
    (e.courseOf script lineDelay).Active (e.launch script lineDelay) .fresh
      (e.launch script lineDelay) :=
  ⟨rfl, rfl, rfl, rfl, trivial, .refl, rfl⟩

/-- Whatever is done after an idle engine has started a script, the run is seen at a state that
it reaches. -/
theorem seen {e : Engine} (hidle : e.isRunning = false) (script : Script) (lineDelay : Span)
    (ops : List Operation) :
    ∃ state part, (e.courseOf script lineDelay).Seen (e.start script lineDelay).1
      ((e.start script lineDelay).1.performAll ops) state part := by
  rw [start_of_idle hidle]
  exact ((Course.lasting_goes _).performAll (fun _ _ => trivial)
    (.inl ⟨_, e.active_launch script lineDelay⟩)).seen

end Engine

end InputScript
