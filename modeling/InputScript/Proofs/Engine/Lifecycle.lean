import InputScript.Proofs.Engine.Progress
import Mathlib.Data.List.Forall2
import Mathlib.Data.List.Induction

/-!
# `InputScript.Proofs.Engine.Lifecycle`: runs begin and end in order

Whatever is done with an engine, and whatever its devices and commands do, its runs follow
one another. The proof keeps account of three things in every state (`Sound`): there is a
worker just while a run is active, one run more has begun than ended just while one is
active, and what whoever waits is told goes with what was reported.

* `Sound.performAll`: the account is right after any history of an engine.
* `callback_performAll`: the callback is the one that was registered last in the history.
* `perform_reports`: an operation either reports nothing, or the active run ends in it and
  is reported once, to the callback that is registered.
* `Sound.waitFor_of_ends`: whoever waits for a run that ends is told, given enough rounds.
* `endedIn_of_reports`: each run that was reported has ended in an operation of the history.
* `run_lifecycle`: what follows for every engine that was ever reached (`Orderly`).
-/

set_option autoImplicit false

namespace InputScript

/-- Whether an event tells how a run ended, in the log or to a callback. -/
def Event.isReport : Event → Bool
  | .ended _ => true
  | .notified .. => true
  | _ => false

/-- Whether a run begins with an event. -/
def Event.isStart : Event → Bool
  | .started .. => true
  | _ => false

/-- The outcome with which a run ends in an event, if one does. -/
def Event.reported? : Event → Option Outcome
  | .ended outcome => some outcome
  | _ => none

/-- Outcomes of the same kind. What is said of a crash may differ, but a failure of an
effect has the same command, line and cause. -/
def Outcome.Alike : Outcome → Outcome → Prop
  | .failed (.aborted _), .failed (.aborted _) => True
  | reported, told => reported = told

/-- Every outcome is of the same kind as itself. -/
theorem Outcome.Alike.refl (outcome : Outcome) : outcome.Alike outcome := by
  unfold Outcome.Alike
  split <;> trivial

/-- The events of the work of a run tell nothing of its end, and no run begins with them. -/
theorem Event.quiet_of_isWork {event : Event} (h : event.isWork = true) :
    event.isReport = false ∧ event.isStart = false := by
  cases event <;> simp_all [isWork, isReport, isStart]

/-- The events of a stretch tell nothing of the end of a run, and no run begins with them. -/
theorem Stage.Added.quiet {s s' : Stage} {new : List (Nat × Event)} (h : s.Added new s') :
    ∀ entry ∈ new.reverse, entry.2.isReport = false ∧ entry.2.isStart = false := by
  intro entry hentry
  exact Event.quiet_of_isWork (h.work entry (List.mem_reverse.mp hentry)).2

/-- What tells nothing of the end of a run has no outcome. -/
theorem Event.reported?_of_quiet {event : Event} (h : event.isReport = false) :
    event.reported? = none := by
  cases event <;> simp_all [isReport, reported?]

namespace Engine

/-! ### Runs and reports -/

/-- How many runs have begun. -/
def starts (e : Engine) : Nat :=
  e.events.countP fun entry => entry.2.isStart

/-- The outcomes that were reported, in order. -/
def reports (e : Engine) : List Outcome :=
  e.events.filterMap fun entry => entry.2.reported?

/-- A run has begun, and whoever waits for it has no answer yet. -/
def Unfinished (e : Engine) (run : Nat) : Prop :=
  run < e.starts ∧ e.outcome? run = none

/-- Nothing is told of the end of a run on the way from `e` to `e'`. -/
structure Unreported (e e' : Engine) : Prop where
  outcomes : e'.outcomes = e.outcomes
  events : ∃ quiet, e'.events = e.events ++ quiet ∧
    ∀ entry ∈ quiet, entry.2.isReport = false

/-- The callback that an operation registers, if it registers one. -/
def registers? : Operation → Option String
  | .onFinished callback => some callback
  | _ => none

/-- The callback that was registered last among operations. -/
def registered? (ops : List Operation) : Option String :=
  (ops.filterMap registers?).getLast?

/-- The active run of `e` ends on the way to `e'`. Its end is the last thing that happens
there, and nothing is told before. The callback that is registered is called once, if there is
one, and sees an idle engine. -/
structure RunEnds (registered : Option String) (reported : Outcome) (e e' : Engine) : Prop where
  active : e.isRunning = true
  idle : e'.isRunning = false
  events : ∃ quiet time told,
    e'.events = e.events ++ quiet ++ (time, .ended reported) ::
      (registered.map fun callback => (time, Event.notified callback reported false)).toList ∧
    (∀ entry ∈ quiet, entry.2.isReport = false) ∧
    e'.outcomes = e.outcomes ++ [told] ∧ reported.Alike told

/-- The state of an engine whose runs follow one another as they should, after its history. -/
structure Orderly (ops : List Operation) (e : Engine) : Prop where
  /-- At most one run is unfinished. -/
  single : ∀ run other, e.Unfinished run → e.Unfinished other → run = other
  /-- The engine is running just while a run is unfinished. -/
  status : e.isRunning = true ↔ ∃ run, e.Unfinished run
  /-- The runs that have finished are those that were reported, each once and in order. -/
  reports : List.Forall₂ Outcome.Alike e.reports e.outcomes
  /-- Whatever is done next, a run that ends is reported to the callback that was registered
  last, if one was. -/
  operation : ∀ op, e.Unreported (e.perform op) ∨
    ∃ reported, RunEnds (registered? ops) reported e (e.perform op)
  /-- Waiting for a run gives an answer just if the run was reported by then, and one of
  the same kind. -/
  waiting : ∀ run rounds, Option.Rel Outcome.Alike
    (e.waitFor run rounds).1.reports[run]? (e.waitFor run rounds).2
  /-- Whoever waits for a run that has finished is told at once. -/
  answered : ∀ run, run < e.starts → ¬e.Unfinished run → ∃ reported told,
    e.reports[run]? = some reported ∧ reported.Alike told ∧
      ∀ rounds, e.waitFor run rounds = (e, some told)
  /-- Whoever waits for the unfinished run is told how it has ended, given as many rounds as it
  takes to end. -/
  awaited : ∀ run, e.Unfinished run → ∀ enough, (e.finishRun enough).isRunning = false →
    ∃ reported told, (e.finishRun enough).reports[run]? = some reported ∧ reported.Alike told ∧
      ∀ rounds, enough ≤ rounds → e.waitFor run rounds = (e.finishRun enough, some told)
  /-- A start succeeds on an idle engine, whatever happened before, and on no other. -/
  restart : ∀ script lineDelay,
    (e.start script lineDelay).2 = (if e.isRunning then none else some e.starts) ∧
      (e.start script lineDelay).1.isRunning = true

/-! ### The account of an engine -/

/-- The account that is right in every state of an engine. -/
structure Sound (e : Engine) : Prop where
  /-- There is a worker just while a run is active. -/
  worker : e.running = e.worker.isSome
  /-- The active run is the one that has begun and not ended. -/
  starts : e.starts = e.outcomes.length + if e.running then 1 else 0
  reports : List.Forall₂ Outcome.Alike e.reports e.outcomes

variable {e e' : Engine}

/-- Later events add to the runs that have begun. -/
theorem starts_append {added : List (Nat × Event)} (h : e'.events = e.events ++ added) :
    e'.starts = e.starts + added.countP fun entry => entry.2.isStart := by
  rw [starts, h, List.countP_append]
  rfl

/-- Later events add to the reports. -/
theorem reports_append {added : List (Nat × Event)} (h : e'.events = e.events ++ added) :
    e'.reports = e.reports ++ added.filterMap fun entry => entry.2.reported? := by
  rw [reports, h, List.filterMap_append]
  rfl

/-- Among events with which no run begins there is no start to count. -/
theorem countP_isStart {added : List (Nat × Event)}
    (h : ∀ entry ∈ added, entry.2.isReport = false ∧ entry.2.isStart = false) :
    added.countP (fun entry => entry.2.isStart) = 0 := by
  rw [List.countP_eq_zero]
  intro entry hentry
  simp [(h entry hentry).2]

/-- Quiet events report nothing. -/
theorem reports_of_quiet {added : List (Nat × Event)} (h : e'.events = e.events ++ added)
    (hquiet : ∀ entry ∈ added, entry.2.isReport = false) : e'.reports = e.reports := by
  rw [reports_append h, List.filterMap_eq_nil_iff.mpr, List.append_nil]
  exact fun entry hentry => Event.reported?_of_quiet (hquiet entry hentry)

/-- An engine that was just made has no runs. -/
theorem Sound.new (startDelay : Span) (env : Surroundings) :
    (Engine.new startDelay env).Sound where
  worker := rfl
  starts := rfl
  reports := .nil

/-- Where there is a worker, a run is active. -/
theorem Sound.running_of_worker (h : e.Sound) {w : Worker} (hw : e.worker = some w) :
    e.running = true := by
  rw [h.worker, hw]
  rfl

/-- The account stays right when the worker has run on and is suspended again. -/
theorem Sound.suspend (h : e.Sound) {w w' : Worker} (hw : e.worker = some w) {stage : Stage}
    {new : List (Nat × Event)} (hnew : e.stage.Added new stage) :
    (e.suspend stage w').Sound := by
  have hevents : (e.suspend stage w').events = e.events ++ new.reverse :=
    events_of_added hnew
  exact {
    worker := h.running_of_worker hw
    starts := by
      rw [starts_append hevents, countP_isStart hnew.quiet]
      exact h.starts
    reports := by
      rw [reports_of_quiet hevents fun entry hentry => (hnew.quiet entry hentry).1]
      exact h.reports }

/-- What a callback is told begins no run and is no report of another one. -/
theorem announcement_quiet (e : Engine) (time : Nat) (outcome : Outcome) :
    (e.announcement time outcome).countP (fun entry => entry.2.isStart) = 0 ∧
      (e.announcement time outcome).filterMap (fun entry => entry.2.reported?) = [] := by
  unfold announcement
  split
  · exact ⟨rfl, rfl⟩
  · exact ⟨rfl, rfl⟩

/-- The account stays right when the active run ends. -/
theorem Sound.close (h : e.Sound) {w : Worker} (hw : e.worker = some w) {stage : Stage}
    {new : List (Nat × Event)} (hnew : e.stage.Added new stage) {reported told : Outcome}
    (halike : reported.Alike told) : (e.close stage reported told).Sound := by
  have hevents := events_close_of_added hnew reported told
  obtain ⟨hnostart, hnoreport⟩ := e.announcement_quiet e.stage.now reported
  have hreports : new.reverse.filterMap (fun entry => entry.2.reported?) = [] := by
    rw [List.filterMap_eq_nil_iff]
    intro entry hentry
    exact Event.reported?_of_quiet (hnew.quiet entry hentry).1
  exact {
    worker := running_close ..
    starts := by
      -- No run begins, one ends: the number of active runs goes from one to none.
      rw [starts_append hevents, List.countP_append, countP_isStart hnew.quiet,
        List.countP_cons, hnostart, outcomes_close, running_close, h.starts,
        h.running_of_worker hw]
      simp [Event.isStart]
    reports := by
      rw [reports_append hevents, List.filterMap_append, hreports, List.filterMap_cons, hnoreport,
        outcomes_close]
      exact List.rel_append h.reports (.cons halike .nil) }

/-- The account stays right in a poll. -/
theorem Sound.poll (h : e.Sound) : e.poll.Sound := by
  have hpolled := e.polled
  generalize e.poll = after at hpolled ⊢
  cases hpolled with
  | waits => exact h
  | suspends w stage phase new hs => exact h.suspend hs.worker hs.added
  | ends w stage outcome new hs =>
    exact h.close hs.worker hs.added (Outcome.Alike.refl outcome)
  | crashes w stage new hs => exact h.close hs.worker hs.added trivial

/-- The account stays right when one event is added that neither begins nor ends a run. -/
theorem Sound.record (h : e.Sound) {event : Event} (hstart : event.isStart = false)
    (hreport : event.isReport = false) (hworker : e'.worker.isSome = e.worker.isSome)
    (hrunning : e'.running = e.running) (houtcomes : e'.outcomes = e.outcomes)
    (hevents : e'.events = e.events ++ [(e.stage.now, event)]) : e'.Sound where
  worker := by rw [hrunning, hworker, h.worker]
  starts := by
    rw [starts_append hevents, houtcomes, hrunning, h.starts]
    simp [hstart]
  reports := by
    rw [reports_of_quiet hevents (by simpa using hreport), houtcomes]
    exact h.reports

/-- The account stays right when a run is started or the start is ignored. -/
theorem Sound.start (h : e.Sound) (script : Script) (lineDelay : Span) :
    (e.start script lineDelay).1.Sound := by
  by_cases hrunning : e.running = true
  · rw [start_of_running hrunning]
    exact h.record rfl rfl rfl rfl rfl (e.events_record .startIgnored)
  · have hidle : e.running = false := by simpa using hrunning
    have hevents := e.events_launch script lineDelay
    rw [start_of_idle hidle]
    exact {
      worker := rfl
      starts := by
        rw [starts_append hevents, h.starts, hidle]
        rfl
      reports := by
        rw [reports_of_quiet hevents (by simp [Event.isReport])]
        exact h.reports }

/-- The account stays right whatever is done with an engine. -/
theorem lasting_sound : Lasting (fun _ => True) Sound where
  poll := fun _ h => h.poll
  setClock := fun _ _ h _ _ _ => ⟨h.worker, h.starts, h.reports⟩
  start := fun _ script lineDelay _ h => h.start script lineDelay
  startOutside := fun e h => h.record rfl rfl rfl rfl rfl (e.events_record .startRefused)
  stop := by
    intro e _ h
    rw [Engine.stop]
    split
    · exact h.record rfl rfl rfl rfl rfl (e.events_record .stopRequested)
    · exact h
  onFinished := fun _ _ h => ⟨h.worker, h.starts, h.reports⟩

/-- The account is right after any history of an engine. -/
theorem Sound.performAll (startDelay : Span) (env : Surroundings) (ops : List Operation) :
    ((Engine.new startDelay env).performAll ops).Sound :=
  lasting_sound.performAll (fun _ _ => trivial) (.new startDelay env)

/-! ### The registered callback -/

/-- The worker and the clock register no callback. -/
theorem progressive_callback (callback : Option String) :
    Progressive fun e => e.callback = callback where
  poll := by
    intro e h
    have hpolled := e.polled
    generalize e.poll = after at hpolled ⊢
    cases hpolled with
    | waits => exact h
    | suspends => exact h
    | ends | crashes => exact (callback_close ..).trans h
  setClock := fun _ _ h _ _ _ => h

/-- An operation that registers a callback sets it, and no other one changes it. -/
theorem callback_perform (e : Engine) (op : Operation) :
    (e.perform op).callback = (registers? op).or e.callback := by
  have hkept := progressive_callback e.callback
  cases op with
  | onFinished callback => rfl
  | start script lineDelay =>
    show (e.start script lineDelay).1.callback = e.callback
    rw [Engine.start]
    split <;> rfl
  | startOutside => rfl
  | stop =>
    show e.stop.callback = e.callback
    rw [Engine.stop]
    split <;> rfl
  | advance span rounds => exact hkept.advance span rounds rfl
  | yield rounds => exact hkept.yield rounds rfl
  | wait run rounds => exact hkept.waitFor run rounds rfl

/-- One more operation. -/
theorem registered?_concat (ops : List Operation) (op : Operation) :
    registered? (ops ++ [op]) = (registers? op).or (registered? ops) := by
  rw [registered?, List.filterMap_append, List.getLast?_append]
  cases op <;> rfl

/-- The callback of an engine is the one that was registered last. -/
theorem callback_performAll (startDelay : Span) (env : Surroundings) (ops : List Operation) :
    ((Engine.new startDelay env).performAll ops).callback = registered? ops := by
  induction ops using List.reverseRecOn with
  | nil => rfl
  | append_singleton ops op ih =>
    rw [performAll_append, registered?_concat, ← ih]
    exact callback_perform _ op

/-- What is said of the end of a run, to the callback of an engine. -/
theorem announcement_eq (e : Engine) (time : Nat) (outcome : Outcome) :
    e.announcement time outcome =
      (e.callback.map fun callback => (time, Event.notified callback outcome false)).toList := by
  rw [announcement]
  cases e.callback <;> rfl

/-! ### What one operation reports -/

/-- One more event that tells nothing of the end of a run. -/
theorem Unreported.record {event : Event} (hreport : event.isReport = false)
    (houtcomes : e'.outcomes = e.outcomes)
    (hevents : e'.events = e.events ++ [(e.stage.now, event)]) : e.Unreported e' where
  outcomes := houtcomes
  events := ⟨_, hevents, by simpa using hreport⟩

/-- Nothing is told where nothing happens. -/
theorem Unreported.refl (houtcomes : e'.outcomes = e.outcomes) (hevents : e'.events = e.events) :
    e.Unreported e' where
  outcomes := houtcomes
  events := ⟨[], by rw [hevents, List.append_nil], by simp⟩

/-- What the worker and the clock do from `e` on: they keep the callback, and as long as no
run ends the engine stays as active as it was. -/
structure Worked (e e' : Engine) : Prop where
  sound : e'.Sound
  callback : e'.callback = e.callback
  told : (e'.running = e.running ∧ e.Unreported e') ∨
    ∃ reported, RunEnds e.callback reported e e'

/-- Where a worker is left the run has not ended. -/
theorem Worked.unreported (h : e.Worked e') {w : Worker} (hw : e'.worker = some w) :
    e.running = true ∧ e.Unreported e' := by
  have hrunning := h.sound.running_of_worker hw
  rcases h.told with ⟨hkept, hquiet⟩ | ⟨_, hends⟩
  · exact ⟨hkept.symm.trans hrunning, hquiet⟩
  · have hidle : e'.running = false := hends.idle
    simp [hidle] at hrunning

/-- Work goes on without a report when the worker is suspended again. -/
theorem Worked.suspend (h : e.Worked e') {w w' : Worker} (hw : e'.worker = some w)
    {stage : Stage} {new : List (Nat × Event)} (hnew : e'.stage.Added new stage) :
    e.Worked (e'.suspend stage w') := by
  obtain ⟨hrunning, houtcomes, quiet, hevents, hquiet⟩ := h.unreported hw
  have hkept : e'.running = e.running := by rw [h.sound.running_of_worker hw, hrunning]
  refine ⟨h.sound.suspend hw hnew, h.callback,
    .inl ⟨hkept, houtcomes, quiet ++ new.reverse, ?_, ?_⟩⟩
  · show stage.history.reverse = _
    rw [events_of_added hnew, hevents, List.append_assoc]
  · intro entry hentry
    rcases List.mem_append.mp hentry with hentry | hentry
    · exact hquiet entry hentry
    · exact (hnew.quiet entry hentry).1

/-- When the worker comes to an end the run is reported, to the callback of `e`. -/
theorem Worked.close (h : e.Worked e') {w : Worker} (hw : e'.worker = some w) {stage : Stage}
    {new : List (Nat × Event)} (hnew : e'.stage.Added new stage) {reported told : Outcome}
    (halike : reported.Alike told) : e.Worked (e'.close stage reported told) := by
  obtain ⟨hrunning, houtcomes, quiet, hevents, hquiet⟩ := h.unreported hw
  have hends : RunEnds e.callback reported e (e'.close stage reported told) := by
    refine ⟨hrunning, running_close .., quiet ++ new.reverse, e'.stage.now, told, ?_, ?_, ?_,
      halike⟩
    · -- The callback is still that of `e`.
      rw [events_close_of_added hnew, hevents, announcement_eq, h.callback]
      simp only [List.append_assoc]
    · intro entry hentry
      rcases List.mem_append.mp hentry with hentry | hentry
      · exact hquiet entry hentry
      · exact (hnew.quiet entry hentry).1
    · rw [outcomes_close, houtcomes]
  exact ⟨h.sound.close hw hnew halike, (callback_close ..).trans h.callback, .inr ⟨reported, hends⟩⟩

/-- The worker and the clock go on as they should. -/
theorem progressive_worked (e : Engine) : Progressive e.Worked where
  poll := by
    intro e' h
    have hpolled := e'.polled
    generalize e'.poll = after at hpolled ⊢
    cases hpolled with
    | waits => exact h
    | suspends w stage phase new hs => exact h.suspend hs.worker hs.added
    | ends w stage outcome new hs =>
      exact h.close hs.worker hs.added (Outcome.Alike.refl outcome)
    | crashes w stage new hs => exact h.close hs.worker hs.added trivial
  setClock := by
    intro e' time h _ _ _
    -- The clock is no part of what is said of the engine.
    refine ⟨⟨h.sound.worker, h.sound.starts, h.sound.reports⟩, h.callback, ?_⟩
    rcases h.told with ⟨hkept, hquiet⟩ | ⟨reported, hends⟩
    · exact .inl ⟨hkept, hquiet.outcomes, hquiet.events⟩
    · exact .inr ⟨reported, hends.active, hends.idle, hends.events⟩

/-- An operation either reports nothing, or the active run ends in it and is reported once,
to the callback that is registered. -/
theorem perform_reports (h : e.Sound) (op : Operation) :
    e.Unreported (e.perform op) ∨ ∃ reported, RunEnds e.callback reported e (e.perform op) := by
  -- Only operations that let the worker run can end a run.
  have hbegin : e.Worked e := ⟨h, rfl, .inl ⟨rfl, .refl rfl rfl⟩⟩
  have hworked {e' : Engine} (hw : e.Worked e') :
      e.Unreported e' ∨ ∃ reported, RunEnds e.callback reported e e' :=
    hw.told.imp_left And.right
  cases op with
  | start script lineDelay =>
    refine .inl ?_
    show e.Unreported (e.start script lineDelay).1
    by_cases hrunning : e.running = true
    · rw [start_of_running hrunning]
      exact .record rfl rfl (e.events_record .startIgnored)
    · have hidle : e.running = false := by simpa using hrunning
      rw [start_of_idle hidle]
      exact .record rfl rfl (e.events_launch script lineDelay)
  | startOutside => exact .inl (.record rfl rfl (e.events_record .startRefused))
  | stop =>
    refine .inl ?_
    show e.Unreported e.stop
    rw [Engine.stop]
    split
    · exact .record rfl rfl (e.events_record .stopRequested)
    · exact .refl rfl rfl
  | onFinished callback => exact .inl (.refl rfl rfl)
  | advance span rounds => exact hworked ((progressive_worked e).advance span rounds hbegin)
  | yield rounds => exact hworked ((progressive_worked e).yield rounds hbegin)
  | wait run rounds => exact hworked ((progressive_worked e).waitFor run rounds hbegin)

/-- Where a run ends, there is one report more. -/
theorem RunEnds.reports_eq {registered : Option String} {reported : Outcome}
    (h : RunEnds registered reported e e') : e'.reports = e.reports ++ [reported] := by
  obtain ⟨-, -, quiet, time, told, hevents, hquiet, -⟩ := h
  rw [List.append_assoc] at hevents
  have hnone : quiet.filterMap (fun entry => entry.2.reported?) = [] := by
    rw [List.filterMap_eq_nil_iff]
    exact fun entry hentry => Event.reported?_of_quiet (hquiet entry hentry)
  rw [reports_append hevents, List.filterMap_append, hnone, List.filterMap_cons]
  cases registered <;> rfl

/-- The run of a number has ended with an outcome in an operation of a history, and was reported
there to the callback that was registered last before. -/
def EndedIn (origin : Engine) (ops : List Operation) (run : Nat) (reported : Outcome) : Prop :=
  ∃ before op after, ops = before ++ op :: after ∧
    let e := origin.performAll before
    e.reports.length = run ∧ RunEnds (registered? before) reported e (e.perform op)

/-- Each run that was reported has ended in an operation of the history. -/
theorem endedIn_of_reports (startDelay : Span) (env : Surroundings) (ops : List Operation)
    {run : Nat} {reported : Outcome}
    (h : ((Engine.new startDelay env).performAll ops).reports[run]? = some reported) :
    EndedIn (Engine.new startDelay env) ops run reported := by
  induction ops using List.reverseRecOn with
  | nil => cases h
  | append_singleton ops op ih =>
    -- It has ended in an operation before the last one, or in that one.
    have hearlier (h : ((Engine.new startDelay env).performAll ops).reports[run]? = some reported) :
        EndedIn (Engine.new startDelay env) (ops ++ [op]) run reported := by
      obtain ⟨before, op', after, rfl, hends⟩ := ih h
      exact ⟨before, op', after ++ [op], by simp, hends⟩
    have hstep := perform_reports (Sound.performAll startDelay env ops) op
    rw [callback_performAll] at hstep
    rw [performAll_append] at h
    change (Engine.perform _ op).reports[run]? = some reported at h
    rcases hstep with hquiet | ⟨reported', hends⟩
    · obtain ⟨quiet, hevents, hquiet⟩ := hquiet.events
      rw [reports_of_quiet hevents hquiet] at h
      exact hearlier h
    · rw [hends.reports_eq] at h
      rcases Nat.lt_trichotomy run ((Engine.new startDelay env).performAll ops).reports.length with
        hlt | heq | hgt
      · rw [List.getElem?_append_left hlt] at h
        exact hearlier h
      · rw [heq, List.getElem?_concat_length] at h
        obtain rfl : reported' = reported := Option.some.inj h
        exact ⟨ops, op, [], rfl, heq.symm, hends⟩
      · rw [List.getElem?_eq_none (by simpa using Nat.succ_le_of_lt hgt)] at h
        cases h

/-! ### The lifecycle -/

/-- The unfinished run is the one that began last, while the engine is running. -/
theorem Sound.unfinished_iff (h : e.Sound) (run : Nat) :
    e.Unfinished run ↔ e.running = true ∧ run = e.outcomes.length := by
  rw [Unfinished, outcome?, List.getElem?_eq_none_iff, h.starts]
  cases e.running with
  | false =>
    simp only [Bool.false_eq_true, if_false, false_and, iff_false]
    omega
  | true =>
    simp only [if_true, true_and]
    omega

/-- Lists of outcomes that go together do so run by run. -/
theorem alike_getElem? {reports outcomes : List Outcome}
    (h : List.Forall₂ Outcome.Alike reports outcomes) (run : Nat) :
    Option.Rel Outcome.Alike reports[run]? outcomes[run]? := by
  induction h generalizing run with
  | nil => exact .none
  | cons hhead _ ih =>
    cases run with
    | zero => exact .some hhead
    | succ run => exact ih run

/-- A run that was reported has an outcome that is alike. -/
theorem Sound.exists_outcome (h : e.Sound) {run : Nat} (hrun : run < e.outcomes.length) :
    ∃ reported told, e.reports[run]? = some reported ∧ e.outcome? run = some told ∧
      reported.Alike told := by
  have htold : e.outcome? run = some e.outcomes[run] := List.getElem?_eq_getElem hrun
  have halike := alike_getElem? h.reports run
  rw [← outcome?, htold] at halike
  generalize hreported : e.reports[run]? = reported at halike
  cases halike with
  | some halike => exact ⟨_, _, rfl, htold, halike⟩

/-- Waiting for a run that has finished changes nothing, and there is an answer. -/
theorem Sound.waitFor_of_finished (h : e.Sound) {run : Nat} (hrun : run < e.outcomes.length) :
    ∃ reported told, e.reports[run]? = some reported ∧ reported.Alike told ∧
      ∀ rounds, e.waitFor run rounds = (e, some told) := by
  obtain ⟨reported, told, hreported, htold, halike⟩ := h.exists_outcome hrun
  refine ⟨reported, told, hreported, halike, fun rounds => ?_⟩
  simp [waitFor, htold]

/-- Waiting for the unfinished run lets it go on until it has ended. -/
theorem Sound.waitFor_of_ends (h : e.Sound) {run enough : Nat} (hrun : e.Unfinished run)
    (hidle : (e.finishRun enough).isRunning = false) :
    ∃ reported told, (e.finishRun enough).reports[run]? = some reported ∧ reported.Alike told ∧
      ∀ rounds, enough ≤ rounds → e.waitFor run rounds = (e.finishRun enough, some told) := by
  have hafter := lasting_sound.finishRun enough h
  obtain ⟨hrunning, rfl⟩ := (h.unfinished_iff run).mp hrun
  -- The run that has begun has ended, since nothing is active any more.
  have hended : e.outcomes.length < (e.finishRun enough).outcomes.length := by
    have hstarts := hafter.starts
    rw [show (e.finishRun enough).running = false from hidle, if_neg Bool.false_ne_true,
      Nat.add_zero] at hstarts
    obtain ⟨added, hadded⟩ := e.events_finishRun enough
    rw [starts_append hadded, h.starts, hrunning, if_pos rfl] at hstarts
    omega
  obtain ⟨reported, told, hreported, htold, halike⟩ := hafter.exists_outcome hended
  refine ⟨reported, told, hreported, halike, fun rounds hle => ?_⟩
  obtain ⟨extra, rfl⟩ := Nat.exists_eq_add_of_le hle
  have hwaits : (decide (e.outcomes.length < e.runs) && (e.outcome? e.outcomes.length).isNone) =
      true := by
    simp [runs, isRunning, hrunning, outcome?]
  rw [waitFor, hwaits, if_pos rfl, ← finishRun_add, finishRun_of_idle hidle, htold]

/-- Every engine that was ever reached has its runs in order: at most one is unfinished, and
just while the engine is running; each run that ends is reported once, from an idle engine,
to the callback that was registered last by then; whoever waits for it is told the same; and the
next start succeeds. -/
theorem run_lifecycle (startDelay : Span) (env : Surroundings) (ops : List Operation) :
    let e := (Engine.new startDelay env).performAll ops
    Orderly ops e ∧ ∀ run reported, e.reports[run]? = some reported →
      EndedIn (Engine.new startDelay env) ops run reported := by
  refine ⟨?_, fun run reported => endedIn_of_reports startDelay env ops⟩
  have h := Sound.performAll startDelay env ops
  have hcallback := callback_performAll startDelay env ops
  -- Of the history only the account and the callback are used.
  generalize (Engine.new startDelay env).performAll ops = e at h hcallback
  exact {
    single := by
      intro run other hrun hother
      rw [h.unfinished_iff] at hrun hother
      exact hrun.2.trans hother.2.symm
    status := by
      simp only [h.unfinished_iff]
      exact ⟨fun hrunning => ⟨_, hrunning, rfl⟩, fun ⟨_, hrunning, _⟩ => hrunning⟩
    reports := h.reports
    operation := hcallback ▸ perform_reports h
    waiting := by
      intro run rounds
      -- Waiting lets the run go on, and the account is right afterwards too.
      have hafter := lasting_sound.waitFor run rounds h
      exact alike_getElem? hafter.reports run
    answered := by
      intro run hstarted hfinished
      refine h.waitFor_of_finished (Nat.lt_of_not_le fun hle => hfinished ⟨hstarted, ?_⟩)
      rw [outcome?, List.getElem?_eq_none_iff]
      exact hle
    awaited := fun run hrun enough hidle => h.waitFor_of_ends hrun hidle
    restart := by
      intro script lineDelay
      refine ⟨?_, e.isRunning_start script lineDelay⟩
      by_cases hrunning : e.running = true
      · rw [start_of_running hrunning, isRunning, hrunning]
        rfl
      · have hidle : e.running = false := by simpa using hrunning
        rw [start_of_idle hidle, isRunning, h.starts, hidle]
        rfl }

/-- A run that crashes and one that completes, with a new callback between them. Each is told of one
of the two, and the crash does not keep the second run from starting. -/
theorem run_lifecycle_crash :
    let env := Conditions.plain.on fun call _ => if call = 1 then .crashed else .done
    let script : Script := ⟨[⟨1, ["1"], .mouseWheel 1⟩], 1⟩
    let ops := [.onFinished "first", .start script .zero, .yield 1, .onFinished "second",
      .start script .zero, .wait 1 2]
    let e := (Engine.new .zero env).performAll ops
    e.isRunning = false ∧ e.reports = [.crashed, .completed] ∧
      EndedIn (Engine.new .zero env) ops 0 .crashed ∧
      EndedIn (Engine.new .zero env) ops 1 .completed ∧
      (∀ rounds, e.waitFor 0 rounds = (e, some (.failed (.aborted "worker 0 crashed")))) ∧
      e.events.filter (fun entry => entry.2.isReport) =
        [(0, .ended .crashed), (0, .notified "first" .crashed false),
          (0, .ended .completed), (0, .notified "second" .completed false)] := by
  intro env script ops e
  obtain ⟨horderly, hended⟩ := run_lifecycle .zero env ops
  have hidle : ¬ ∃ run, e.Unfinished run := horderly.status.not.mp (by decide)
  obtain ⟨reported, told, -, -, hwait⟩ :=
    horderly.answered 0 (by decide) fun hrun => hidle ⟨0, hrun⟩
  have htold : some told = some (.failed (.aborted "worker 0 crashed")) :=
    (congrArg Prod.snd (hwait 0)).symm.trans (by decide)
  refine ⟨by decide, by decide, hended 0 _ (by decide), hended 1 _ (by decide), ?_, by decide⟩
  intro rounds
  rw [← htold]
  exact hwait rounds

end Engine

end InputScript
