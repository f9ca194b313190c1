import InputScript.Engine.Operation
import InputScript.Proofs.Engine.Stretch

/-!
# `InputScript.Proofs.Engine.Progress`: how an engine gets from one state to the next

An engine moves in two ways: its worker runs for a stretch, or the clock moves while the
worker waits. What both keep is kept by everything that lets time pass, and what the other
operations keep as well is kept by every history of an engine.

* `polled`: the four things that a poll can do.
* `Progressive.runUntil`, `Progressive.finishRun`: what polls and moves of the clock keep is
  kept when time passes.
* `Lasting.performAll`: what every single operation keeps, if it is one of those admitted,
  holds after any history of them.
-/

set_option autoImplicit false

namespace InputScript

namespace Engine

/-! ### How a run begins and ends -/

/-- The engine in which a run has begun. -/
def launch (e : Engine) (script : Script) (lineDelay : Span) : Engine :=
  let stage := e.stage.record (.started script.length (lineDelay.millis % Number.bound64))
  { e with
    stage := { stage with cancelled := false, transfer := none, cursor := 0 }
    running := true
    worker := some ⟨script, lineDelay, .fresh⟩ }

/-- An idle engine begins the run that it is asked for. -/
theorem start_of_idle {e : Engine} (h : e.running = false) (script : Script)
    (lineDelay : Span) :
    e.start script lineDelay = (e.launch script lineDelay, some e.outcomes.length) := by
  rw [start, isRunning, h]
  rfl

/-- An engine that is running only notes that it was asked. -/
theorem start_of_running {e : Engine} (h : e.running = true) (script : Script)
    (lineDelay : Span) : e.start script lineDelay = (e.record .startIgnored, none) := by
  rw [start, isRunning, h]
  rfl

/-- A stop of an engine that is running reaches its worker. -/
theorem stop_of_running {e : Engine} (h : e.running = true) :
    e.stop = { e with stage := e.stage.requestStop } := by
  rw [stop, isRunning, h]
  rfl

/-- The events after one more was recorded. -/
theorem events_record (e : Engine) (event : Event) :
    (e.record event).events = e.events ++ [(e.stage.now, event)] :=
  List.reverse_cons

/-- The beginning of a run is one event. -/
theorem events_launch (e : Engine) (script : Script) (lineDelay : Span) :
    (e.launch script lineDelay).events = e.events ++
      [(e.stage.now, .started script.length (lineDelay.millis % Number.bound64))] :=
  List.reverse_cons

/-- The call of the callback with which the report of an outcome ends, if one is
registered. It sees an idle engine. -/
def announcement (e : Engine) (time : Nat) (outcome : Outcome) : List (Nat × Event) :=
  match e.callback with
  | none => []
  | some callback => [(time, .notified callback outcome false)]

variable (e : Engine) (outcome : Outcome)

/-- A report adds the end of the run and the call of the callback to the history, and leaves
the engine idle. -/
theorem report_eq : e.report outcome =
    { e with
      stage := { e.stage with
        history := (e.announcement e.stage.now outcome).reverse ++
          (e.stage.now, .ended outcome) :: e.stage.history }
      running := false } := by
  cases hcallback : e.callback with
  | none => simp [report, record, Stage.record, announcement, hcallback]
  | some callback => simp [report, record, Stage.record, announcement, hcallback, isRunning]

/-- A report says that the run ended, and then tells the callback. -/
theorem events_report : (e.report outcome).events =
    e.events ++ (e.stage.now, .ended outcome) :: e.announcement e.stage.now outcome := by
  rw [report_eq, events]
  simp [events]

@[simp] theorem running_report : (e.report outcome).running = false := by
  rw [report_eq]

@[simp] theorem outcomes_report : (e.report outcome).outcomes = e.outcomes := by
  rw [report_eq]

@[simp] theorem callback_report : (e.report outcome).callback = e.callback := by
  rw [report_eq]

@[simp] theorem now_report : (e.report outcome).stage.now = e.stage.now := by
  rw [report_eq]

@[simp] theorem surroundings_report :
    (e.report outcome).surroundings = e.surroundings := by
  rw [report_eq]

variable (stage : Stage) (reported told : Outcome)

/-- The engine whose worker is suspended again after a stretch. -/
def suspend (w : Worker) : Engine :=
  { e with stage := stage, worker := some w }

/-- The engine in which the run has ended after a stretch: the outcome was reported, and
whoever waits for the run is told. -/
def close : Engine :=
  ({ e with stage := stage }.report reported).endTask told

@[simp] theorem worker_close : (e.close stage reported told).worker = none := rfl

@[simp] theorem running_close : (e.close stage reported told).running = false :=
  running_report _ reported

@[simp] theorem outcomes_close :
    (e.close stage reported told).outcomes = e.outcomes ++ [told] :=
  congrArg (· ++ [told]) (outcomes_report _ reported)

@[simp] theorem callback_close : (e.close stage reported told).callback = e.callback :=
  callback_report _ reported

@[simp] theorem now_close : (e.close stage reported told).stage.now = stage.now :=
  now_report _ reported

/-- The events of the end of a run are those of the stretch and of its report. -/
theorem events_close : (e.close stage reported told).events =
    stage.history.reverse ++
      (stage.now, .ended reported) :: e.announcement stage.now reported :=
  events_report _ reported

omit e outcome stage reported told

/-! ### What a poll does -/

/-- The events of an engine whose worker has run for a stretch. -/
theorem events_of_added {e : Engine} {stage : Stage} {new : List (Nat × Event)}
    (h : e.stage.Added new stage) : stage.history.reverse = e.events ++ new.reverse := by
  rw [h.history, List.reverse_append]
  rfl

/-- The events of a stretch with which the active run ends: those of the work, then those of
the report. -/
theorem events_close_of_added {e : Engine} {stage : Stage} {new : List (Nat × Event)}
    (hnew : e.stage.Added new stage) (reported told : Outcome) :
    (e.close stage reported told).events = e.events ++ (new.reverse ++
      (e.stage.now, .ended reported) :: e.announcement e.stage.now reported) := by
  rw [events_close, events_of_added hnew, hnew.now, List.append_assoc]

/-- A stretch that a worker can begin in an engine: what it leads to, and the events that it
adds, the latest first. -/
structure Stretched (e : Engine) (w : Worker) (stage : Stage) (progress : Progress)
    (new : List (Nat × Event)) : Prop where
  worker : e.worker = some w
  ready : w.phase.isReady e.stage.cancelled e.stage.now = true
  poll : w.poll e.surroundings e.startDelay e.stage = (stage, progress)
  added : e.stage.Added new stage

/-- What a poll can do: nothing while the worker waits, and else what the stretch of the
worker asks for. -/
inductive Polled (e : Engine) : Engine → Prop where
  | waits (h : e.isReady = false) : Polled e e
  | suspends (w : Worker) (stage : Stage) (phase : Phase) (new : List (Nat × Event))
      (h : e.Stretched w stage (.suspended phase) new) :
      Polled e (e.suspend stage { w with phase := phase })
  | ends (w : Worker) (stage : Stage) (outcome : Outcome) (new : List (Nat × Event))
      (h : e.Stretched w stage (.ended outcome) new) : Polled e (e.close stage outcome outcome)
  | crashes (w : Worker) (stage : Stage) (new : List (Nat × Event))
      (h : e.Stretched w stage .crashed new) :
      Polled e (e.close stage .crashed
        (.failed (.aborted (e.surroundings.crashReport e.outcomes.length))))

/-- A poll does nothing while the worker waits. -/
theorem poll_of_waits {e : Engine} (h : e.isReady = false) : e.poll = e := by
  cases hw : e.worker with
  | none => simp only [poll, hw]
  | some w =>
    have hwaits : w.phase.isReady e.stage.cancelled e.stage.now = false := by
      simpa only [isReady, hw] using h
    simp only [poll, hw, hwaits]
    rfl

/-- A worker that can go on runs for a stretch. -/
theorem exists_stretched {e : Engine} (h : e.isReady = true) :
    ∃ w stage progress new, e.Stretched w stage progress new ∧
      e.poll = e.afterStretch w (stage, progress) := by
  cases hw : e.worker with
  | none => simp [isReady, hw] at h
  | some w =>
    have hready : w.phase.isReady e.stage.cancelled e.stage.now = true := by
      simpa only [isReady, hw] using h
    obtain ⟨new, hnew⟩ := (w.poll_steps e.surroundings e.startDelay e.stage).added
    obtain ⟨⟨stage, progress⟩, hpoll⟩ :
        ∃ result, w.poll e.surroundings e.startDelay e.stage = result := ⟨_, rfl⟩
    rw [hpoll] at hnew
    refine ⟨w, stage, progress, new, ⟨hw, hready, hpoll, hnew⟩, ?_⟩
    simp only [poll, hw, hready, if_true, hpoll]

/-- A poll does one of these. -/
theorem polled (e : Engine) : e.Polled e.poll := by
  by_cases hready : e.isReady = true
  · obtain ⟨w, stage, progress, new, hstretched, hpoll⟩ := exists_stretched hready
    rw [hpoll]
    cases progress with
    | suspended phase => exact .suspends w stage phase new hstretched
    | ended outcome => exact .ends w stage outcome new hstretched
    | crashed =>
      -- The guard was left armed, and it reports the crash.
      exact .crashes w stage new hstretched
  · have hwaits : e.isReady = false := by simpa using hready
    rw [poll_of_waits hwaits]
    exact .waits hwaits

/-- A poll takes no time. -/
theorem now_poll (e : Engine) : e.poll.stage.now = e.stage.now := by
  have hpolled := e.polled
  generalize e.poll = after at hpolled ⊢
  cases hpolled with
  | waits => rfl
  | suspends w stage phase new h => exact h.added.now
  | ends w stage outcome new h =>
    rw [now_close]
    exact h.added.now
  | crashes w stage new h =>
    rw [now_close]
    exact h.added.now

/-- A poll only adds events. -/
theorem events_poll (e : Engine) : ∃ added, e.poll.events = e.events ++ added := by
  have hpolled := e.polled
  generalize e.poll = after at hpolled ⊢
  cases hpolled with
  | waits => exact ⟨[], (List.append_nil _).symm⟩
  | suspends w stage phase new h => exact ⟨_, events_of_added h.added⟩
  | ends w stage outcome new h => exact ⟨_, events_close_of_added h.added _ _⟩
  | crashes w stage new h => exact ⟨_, events_close_of_added h.added _ _⟩

/-- A worker that waits sleeps for a time to come. -/
theorem now_lt_of_wake {e : Engine} (h : e.isReady = false) {wake : Nat}
    (hwake : e.wake? = some wake) : e.stage.now < wake := by
  cases hw : e.worker with
  | none => simp [wake?, hw] at hwake
  | some w =>
    simp only [wake?, hw, Option.bind_some] at hwake
    simp only [isReady, hw, Phase.isReady, hwake, Bool.or_eq_false_iff,
      decide_eq_false_iff_not] at h
    omega

/-- A worker that can go on uses the next round for a stretch. -/
theorem finishRun_of_ready {e : Engine} (hrunning : e.running = true) (hready : e.isReady = true)
    (rounds : Nat) : e.finishRun (rounds + 1) = e.poll.finishRun rounds := by
  rw [finishRun, if_pos (show e.isRunning = true from hrunning), if_pos hready]

/-- While the worker sleeps the next round moves the clock. -/
theorem finishRun_of_waits {e : Engine} (hrunning : e.running = true) (hwaits : e.isReady = false)
    {wake : Nat} (hwake : e.wake? = some wake) (rounds : Nat) :
    e.finishRun (rounds + 1) = (e.setClock wake).finishRun rounds := by
  rw [finishRun, if_pos (show e.isRunning = true from hrunning), if_neg (by simp [hwaits]), hwake]

/-- Rounds that are used one after the other add up. -/
theorem finishRun_add (e : Engine) (first second : Nat) :
    (e.finishRun first).finishRun second = e.finishRun (first + second) := by
  induction first generalizing e with
  | zero => rw [Nat.zero_add]; rfl
  | succ first ih =>
    rw [Nat.succ_add, finishRun, finishRun]
    split
    · rename_i hrunning
      split
      · exact ih e.poll
      · rename_i hready
        split
        · rename_i hwake
          -- Without a worker nothing happens in the later rounds either.
          cases second with
          | zero => rfl
          | succ second => rw [finishRun, if_pos hrunning, if_neg hready, hwake]
        · exact ih _
    · rename_i hrunning
      exact finishRun_of_idle (by simpa using hrunning) second

/-! ### Letting time pass -/

/-- What the worker and the clock keep between them. The clock moves only while the worker
waits, and never past the time that the worker sleeps for. -/
structure Progressive (P : Engine → Prop) : Prop where
  poll : ∀ e, P e → P e.poll
  setClock : ∀ e time, P e → e.isReady = false → e.stage.now ≤ time →
    (∀ wake, e.wake? = some wake → time ≤ wake) → P (e.setClock time)

namespace Progressive

variable {P : Engine → Prop} (h : Progressive P)

include h

/-- Giving way to the worker keeps what polls keep. -/
theorem yield (rounds : Nat) {e : Engine} (hP : P e) : P (e.yield rounds) := by
  induction rounds generalizing e with
  | zero => exact hP
  | succ rounds ih =>
    show P (e.poll.yield rounds)
    exact ih (h.poll e hP)

/-- Sleeping until the time that the worker waits for keeps what moves of the clock keep. -/
theorem sleep {e : Engine} (hP : P e) (hready : e.isReady = false) {wake : Nat}
    (hwake : e.wake? = some wake) : P (e.setClock wake) := by
  apply h.setClock e wake hP hready
  · exact Nat.le_of_lt (now_lt_of_wake hready hwake)
  · intro other hother
    exact Nat.le_of_eq (Option.some.inj (hwake.symm.trans hother))

/-- Moving on to a time keeps what polls and moves of the clock keep. -/
theorem runUntil (time rounds : Nat) {e : Engine} (hP : P e) (htime : e.stage.now ≤ time) :
    P (e.runUntil time rounds) := by
  induction rounds generalizing e with
  | zero => exact hP
  | succ rounds ih =>
    rw [Engine.runUntil]
    -- The worker goes on if it can. If it cannot, the clock moves.
    split
    · refine ih (h.poll e hP) ?_
      rw [now_poll]
      exact htime
    · rename_i hready
      have hready : e.isReady = false := by simpa using hready
      split
      · rename_i hwake
        -- No worker sleeps, so nothing keeps the clock from the time asked for.
        exact h.setClock e time hP hready htime (by simp [hwake])
      · rename_i wake hwake
        split
        · rename_i hdue
          exact ih (h.sleep hP hready hwake) hdue
        · rename_i hdue
          -- The clock stops before the worker wakes.
          apply h.setClock e time hP hready htime
          intro other hother
          rw [Option.some.inj (hother.symm.trans hwake)]
          exact Nat.le_of_not_le hdue

/-- Letting a span pass keeps what polls and moves of the clock keep. -/
theorem advance (span : Span) (rounds : Nat) {e : Engine} (hP : P e) :
    P (e.advance span rounds) :=
  h.runUntil _ rounds hP (Nat.le_add_right _ _)

/-- Finishing a run keeps what polls and moves of the clock keep. -/
theorem finishRun (rounds : Nat) {e : Engine} (hP : P e) : P (e.finishRun rounds) := by
  induction rounds generalizing e with
  | zero => exact hP
  | succ rounds ih =>
    rw [Engine.finishRun]
    split
    · split
      · exact ih (h.poll e hP)
      · rename_i hready
        have hready : e.isReady = false := by simpa using hready
        split
        · exact hP
        · rename_i wake hwake
          exact ih (h.sleep hP hready hwake)
    · exact hP

/-- Waiting for a run keeps what polls and moves of the clock keep. -/
theorem waitFor (run rounds : Nat) {e : Engine} (hP : P e) : P (e.waitFor run rounds).1 := by
  simp only [Engine.waitFor]
  split
  · exact h.finishRun rounds hP
  · exact hP

end Progressive

/-- Finishing a run only adds events. -/
theorem events_finishRun (e : Engine) (rounds : Nat) :
    ∃ added, (e.finishRun rounds).events = e.events ++ added := by
  have hprogressive : Progressive fun later => ∃ added, later.events = e.events ++ added := by
    constructor
    · rintro later ⟨added, hadded⟩
      obtain ⟨more, hmore⟩ := later.events_poll
      exact ⟨added ++ more, by rw [hmore, hadded, List.append_assoc]⟩
    · exact fun _ _ hadded _ _ _ => hadded
  exact hprogressive.finishRun rounds ⟨[], (List.append_nil _).symm⟩

/-! ### Whole histories -/

/-- What every operation keeps, as far as it is admitted to start scripts and to stop. -/
structure Lasting (admitted : Operation → Prop) (P : Engine → Prop) : Prop
    extends Progressive P where
  start : ∀ e script lineDelay, admitted (.start script lineDelay) → P e →
    P (e.start script lineDelay).1
  startOutside : ∀ e, P e → P e.startOutside
  stop : ∀ e, admitted .stop → P e → P e.stop
  onFinished : ∀ e callback, P e → P (e.onFinished callback)

namespace Lasting

variable {admitted : Operation → Prop} {P : Engine → Prop} (h : Lasting admitted P)

include h

/-- An operation keeps what every operation keeps. -/
theorem perform {op : Operation} (hop : admitted op) {e : Engine} (hP : P e) :
    P (e.perform op) := by
  cases op with
  | start script lineDelay => exact h.start e script lineDelay hop hP
  | startOutside => exact h.startOutside e hP
  | stop => exact h.stop e hop hP
  | onFinished callback => exact h.onFinished e callback hP
  | advance span rounds => exact h.advance span rounds hP
  | yield rounds => exact h.yield rounds hP
  | wait run rounds => exact h.waitFor run rounds hP

/-- A history keeps what every operation keeps. -/
theorem performAll {ops : List Operation} (hops : ∀ op ∈ ops, admitted op)
    {e : Engine} (hP : P e) : P (e.performAll ops) := by
  induction ops generalizing e with
  | nil => exact hP
  | cons op rest ih =>
    show P ((e.perform op).performAll rest)
    -- The first operation keeps it, and the others go on from there.
    have hfirst := h.perform (hops op (List.mem_cons_self ..)) hP
    exact ih (fun other hother => hops other (List.mem_cons_of_mem _ hother)) hfirst

end Lasting

end Engine

end InputScript
