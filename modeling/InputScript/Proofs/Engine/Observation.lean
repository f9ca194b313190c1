import InputScript.Proofs.Engine.Progress

/-!
# `InputScript.Proofs.Engine.Observation`: what can be observed of an engine

After every operation of a history something can be observed: whether a start succeeded, how a
run ended that was waited for, the status, the cursor, the time, the outcomes, and the events
that the operation added. Events are only ever added and never looked at again, so what is
observed later does not depend on those that were there before. A start that is refused and a
stop of an idle engine change nothing else.

* `Program.run_under`, `Worker.poll_under`: the work of a run goes on in the same way above
  other past events.
* `Engine.perform_under`: so does every operation.
* `observations_forgetEvents`: what is observed depends on the engine without its past events.
* `forgetEvents_perform`: an operation that comes to nothing changes no more than these.
* `eraseIdx_observations`: inserted anywhere into a history, it changes no other observation.
-/

set_option autoImplicit false

namespace InputScript

/-! ### Past events -/

/-- The stage above other past events, which are older than all of its own. -/
def Stage.under (old : List (Nat × Event)) (s : Stage) : Stage :=
  { s with history := s.history ++ old }

variable (env : Surroundings) (old : List (Nat × Event))

@[simp] theorem Stage.now_under (s : Stage) : (s.under old).now = s.now := rfl

@[simp] theorem Stage.calls_under (s : Stage) : (s.under old).calls = s.calls := rfl

@[simp] theorem Stage.cancelled_under (s : Stage) : (s.under old).cancelled = s.cancelled := rfl

@[simp] theorem Stage.transfer_under (s : Stage) : (s.under old).transfer = s.transfer := rfl

/-- A call of a device goes in the same way above other past events. -/
theorem Stage.call_under (device : Device) (effect : Effect) (s : Stage) :
    (s.under old).call device effect = (s.call device effect).under old := by
  have hreply : (s.under old).reply device effect = s.reply device effect := rfl
  rw [call, call, hreply]
  split <;> rfl

/-- A program runs in the same way above other past events. -/
theorem Program.run_under (p : Program) (s : Stage) :
    p.run env (s.under old) = Prod.map (Stage.under old) id (p.run env s) := by
  induction p generalizing s with
  | done => rfl
  | fail cause => rfl
  | crash => rfl
  | call effect next failed ih ihFailed =>
    have hreply : (s.under old).reply env.device effect = s.reply env.device effect := rfl
    rw [run, run, hreply, Stage.call_under]
    split
    · exact ih (s.call env.device effect)
    · exact ihFailed _ (s.call env.device effect)
    · rfl
  | pause span next ih =>
    rw [run, run, Stage.cancelled_under, Stage.now_under]
    -- A sleep begins in the same way, whatever happened before.
    split
    · exact ih _ s
    · rfl
  | stopping next ih => exact ih s.cancelled s
  | jump line next ih => exact ih { s with transfer := some (.line line) }
  | stop next ih => exact ih { s with transfer := some .stop, cancelled := true }
  | choose low high next ih => exact ih _ { s with draws := s.draws + 1 }

namespace Worker

section Parts

variable {goOn : Stage → Stage × Progress}
  (hgoOn : ∀ s : Stage, goOn (s.under old) = Prod.map (Stage.under old) id (goOn s))

include hgoOn

/-- So is a line delay taken. -/
theorem delayLine_under (timer : Timer) (delay : Span) (next : Nat) (s : Stage) :
    delayLine timer delay next goOn (s.under old) =
      Prod.map (Stage.under old) id (delayLine timer delay next goOn s) := by
  rw [delayLine, delayLine, Stage.cancelled_under, Stage.now_under]
  split
  · exact hgoOn s
  · rfl
  · rfl

/-- So does an instruction hand over to the next. -/
theorem settle_under (timer : Timer) (delay : Span) (index : Nat) (i : Instruction)
    (isLast : Bool) (s : Stage) (halt : Halt) :
    settle timer delay index i isLast goOn (s.under old) halt =
      Prod.map (Stage.under old) id (settle timer delay index i isLast goOn s halt) := by
  cases halt with
  | asleep wake rest => rfl
  | failed cause => rfl
  | crashed => rfl
  | returned =>
    rw [settle, settle, Stage.transfer_under]
    split
    · rfl
    · rfl
    · split
      · exact hgoOn s
      · exact delayLine_under old hgoOn timer delay (index + 1) s

end Parts

/-- Instructions run in the same way above other past events. -/
theorem runFrom_under (delay : Span) (index : Nat) (is : List Instruction) (s : Stage) :
    runFrom env delay index is (s.under old) =
      Prod.map (Stage.under old) id (runFrom env delay index is s) := by
  induction is generalizing index s with
  | nil => rfl
  | cons i rest ih =>
    rw [runFrom, runFrom, Stage.cancelled_under]
    split
    · rfl
    · -- The instruction begins, its program runs, and the rest of the script follows.
      have hrun := Program.run_under env old i.command.program (s.beginInstruction index i)
      rw [show (s.under old).beginInstruction index i = (s.beginInstruction index i).under old
        from rfl, hrun]
      exact settle_under old (ih (index + 1)) env.timer delay index i rest.isEmpty _ _

/-- A stretch of the worker goes in the same way above other past events. -/
theorem poll_under (w : Worker) (startDelay : Span) (s : Stage) :
    w.poll env startDelay (s.under old) =
      Prod.map (Stage.under old) id (w.poll env startDelay s) := by
  have hcontinue (index : Nat) (s : Stage) : w.continueAt env index (s.under old) =
      Prod.map (Stage.under old) id (w.continueAt env index s) :=
    runFrom_under env old w.lineDelay index _ s
  rw [poll, poll]
  cases w.phase with
  | fresh =>
    dsimp only
    rw [Stage.cancelled_under, Stage.now_under]
    split
    · exact hcontinue 0 s
    · rfl
    · rfl
  | beforeStart wake =>
    dsimp only
    rw [Stage.cancelled_under]
    split
    · rfl
    · exact hcontinue 0 s
  | inCommand index wake rest =>
    dsimp only
    rw [resume, resume]
    split
    · exact hcontinue index s
    · dsimp only
      rw [Stage.cancelled_under, Stage.now_under, Program.run_under]
      exact settle_under old (hcontinue (index + 1)) _ _ _ _ _ _ _
  | afterJump line =>
    dsimp only
    split
    · exact delayLine_under old (hcontinue _) _ _ _ s
    · exact hcontinue _ s
  | betweenLines wake next =>
    dsimp only
    rw [Stage.cancelled_under]
    split
    · rfl
    · exact hcontinue next s

end Worker

namespace Engine

/-- The engine above other past events. -/
def under (old : List (Nat × Event)) (e : Engine) : Engine :=
  { e with stage := e.stage.under old }

variable {old}

theorem isReady_under (e : Engine) : (e.under old).isReady = e.isReady := rfl

theorem wake?_under (e : Engine) : (e.under old).wake? = e.wake? := rfl

theorem isRunning_under (e : Engine) : (e.under old).isRunning = e.isRunning := rfl

/-- The end of a run is reported in the same way above other past events. -/
theorem report_under (e : Engine) (outcome : Outcome) :
    (e.under old).report outcome = (e.report outcome).under old := by
  rw [report_eq, report_eq]
  simp [under, Stage.under, announcement]

/-- So does an engine go on after a stretch of its worker. -/
theorem afterStretch_under (e : Engine) (w : Worker) (result : Stage × Progress) :
    (e.under old).afterStretch w (Prod.map (Stage.under old) id result) =
      (e.afterStretch w result).under old := by
  obtain ⟨stage, phase | outcome | _⟩ := result
  · rfl
  · exact congrArg (·.endTask outcome) (report_under { e with stage := stage } outcome)
  · exact congrArg
      (·.endTask (.failed (.aborted (e.surroundings.crashReport e.outcomes.length))))
      (report_under { e with stage := stage } .crashed)

/-- A poll does the same above other past events. -/
theorem poll_under (e : Engine) : (e.under old).poll = e.poll.under old := by
  cases hw : e.worker with
  | none =>
    have hw' : (e.under old).worker = none := hw
    simp only [poll, hw, hw']
  | some w =>
    have hw' : (e.under old).worker = some w := hw
    simp only [poll, hw, hw']
    show (if w.phase.isReady e.stage.cancelled e.stage.now then (e.under old).afterStretch w
      (w.poll e.surroundings e.startDelay (e.stage.under old)) else e.under old) = _
    split
    · rw [Worker.poll_under, afterStretch_under]
    · rfl

/-- So does giving way to the worker. -/
theorem yield_under (e : Engine) (rounds : Nat) :
    (e.under old).yield rounds = (e.yield rounds).under old := by
  induction rounds generalizing e with
  | zero => rfl
  | succ rounds ih =>
    rw [yield, yield, poll_under]
    exact ih e.poll

/-- So does moving on to a time. -/
theorem runUntil_under (e : Engine) (time rounds : Nat) :
    (e.under old).runUntil time rounds = (e.runUntil time rounds).under old := by
  induction rounds generalizing e with
  | zero => rfl
  | succ rounds ih =>
    rw [runUntil, runUntil, poll_under, isReady_under, wake?_under]
    split
    · exact ih e.poll
    · split
      · rfl
      · split
        · exact ih (e.setClock _)
        · rfl

/-- So does finishing a run. -/
theorem finishRun_under (e : Engine) (rounds : Nat) :
    (e.under old).finishRun rounds = (e.finishRun rounds).under old := by
  induction rounds generalizing e with
  | zero => rfl
  | succ rounds ih =>
    rw [finishRun, finishRun, poll_under, isReady_under, wake?_under, isRunning_under]
    split
    · split
      · exact ih e.poll
      · split
        · rfl
        · exact ih (e.setClock _)
    · rfl

/-- A run is waited for in the same way, and the answer is the same. -/
theorem waitFor_under (e : Engine) (run rounds : Nat) :
    (e.under old).waitFor run rounds =
      Prod.map (Engine.under old) id (e.waitFor run rounds) := by
  have hafter : (if run < (e.under old).runs && ((e.under old).outcome? run).isNone then
      (e.under old).finishRun rounds else e.under old) =
      (if run < e.runs && (e.outcome? run).isNone then e.finishRun rounds else e).under old := by
    rw [finishRun_under, apply_ite (Engine.under old)]
    rfl
  rw [waitFor, waitFor, hafter]
  rfl

/-- A start is answered in the same way above other past events. -/
theorem start_under (e : Engine) (script : Script) (lineDelay : Span) :
    (e.under old).start script lineDelay =
      Prod.map (Engine.under old) id (e.start script lineDelay) := by
  rw [start, start, isRunning_under]
  split
  · rfl
  · rfl

/-- Every operation does the same above other past events. -/
theorem perform_under (e : Engine) (op : Operation) :
    (e.under old).perform op = (e.perform op).under old := by
  cases op with
  | start script lineDelay => exact congrArg Prod.fst (start_under e script lineDelay)
  | startOutside => rfl
  | stop =>
    show (e.under old).stop = e.stop.under old
    rw [stop, stop, isRunning_under]
    split
    · rfl
    · rfl
  | onFinished callback => rfl
  | advance span rounds => exact runUntil_under e _ rounds
  | yield rounds => exact yield_under e rounds
  | wait run rounds => exact congrArg Prod.fst (waitFor_under e run rounds)

end Engine

/-! ### Observations -/

/-- What can be observed of an engine after an operation. -/
structure Observation where
  /-- The number of the run that the operation started, if it did. -/
  started : Option Nat
  /-- How the run ended that was waited for, if it was and has. -/
  told : Option Outcome
  running : Bool
  cursor : Option Nat
  now : Nat
  /-- How the runs ended that have ended by then. -/
  outcomes : List Outcome
  /-- The events that the operation added, with their times: effects, ends of runs and calls
  of the callback among them. -/
  events : List (Nat × Event)
deriving DecidableEq, Repr

namespace Engine

variable {old}

/-- The number of the run that an operation starts. -/
def startedBy (e : Engine) : Operation → Option Nat
  | .start script lineDelay => (e.start script lineDelay).2
  | _ => none

/-- What an operation tells of the end of a run. -/
def toldBy (e : Engine) : Operation → Option Outcome
  | .wait run rounds => (e.waitFor run rounds).2
  | _ => none

/-- What can be observed after an operation. -/
def observe (e : Engine) (op : Operation) : Observation where
  started := e.startedBy op
  told := e.toldBy op
  running := (e.perform op).isRunning
  cursor := (e.perform op).cursor?
  now := (e.perform op).stage.now
  outcomes := (e.perform op).outcomes
  events := (e.perform op).events.drop e.events.length

/-- What can be observed during a history, one observation for each operation. -/
def observations (e : Engine) : List Operation → List Observation
  | [] => []
  | op :: rest => e.observe op :: (e.perform op).observations rest

/-- An operation that comes to nothing: a start from where nothing can be run, a start while a
run is active, or a stop while none is. -/
def comesToNothing (e : Engine) : Operation → Bool
  | .start .. => e.isRunning
  | .startOutside => true
  | .stop => !e.isRunning
  | _ => false

/-- What is observed in two histories, one after the other. -/
theorem observations_append (e : Engine) (first second : List Operation) :
    e.observations (first ++ second) =
      e.observations first ++ (e.performAll first).observations second := by
  induction first generalizing e with
  | nil => rfl
  | cons op rest ih =>
    show e.observe op :: (e.perform op).observations (rest ++ second) = _
    rw [ih]
    rfl

theorem length_observations (e : Engine) (ops : List Operation) :
    (e.observations ops).length = ops.length := by
  induction ops generalizing e with
  | nil => rfl
  | cons op rest ih => rw [observations, List.length_cons, List.length_cons, ih]

/-- The past events come before those of the engine itself. -/
theorem events_under (e : Engine) : (e.under old).events = old.reverse ++ e.events :=
  List.reverse_append

/-- What is observed of one operation does not depend on past events. -/
theorem observe_under (e : Engine) (op : Operation) :
    (e.under old).observe op = e.observe op := by
  have hstarted : (e.under old).startedBy op = e.startedBy op := by
    cases op with
    | start script lineDelay =>
      show ((e.under old).start script lineDelay).2 = _
      rw [start_under]
      rfl
    | _ => rfl
  have htold : (e.under old).toldBy op = e.toldBy op := by
    cases op with
    | wait run rounds =>
      show ((e.under old).waitFor run rounds).2 = _
      rw [waitFor_under]
      rfl
    | _ => rfl
  have hevents : ((e.under old).perform op).events.drop (e.under old).events.length =
      (e.perform op).events.drop e.events.length := by
    rw [perform_under, events_under, events_under, List.length_append, List.drop_length_add_append]
  rw [observe, hstarted, htold, hevents, perform_under]
  rfl

/-- Nor does what is observed during a history. -/
theorem observations_under (e : Engine) (ops : List Operation) :
    (e.under old).observations ops = e.observations ops := by
  induction ops generalizing e with
  | nil => rfl
  | cons op rest ih => rw [observations, observations, observe_under, perform_under, ih]

/-- What is observed depends on the engine without its past events only. -/
theorem observations_forgetEvents (e : Engine) (ops : List Operation) :
    e.forgetEvents.observations ops = e.observations ops :=
  (observations_under e.forgetEvents ops).symm

/-! ### Operations that come to nothing -/

/-- An operation that comes to nothing changes the past events at most, to which it adds a note
that a start did not succeed. -/
theorem forgetEvents_perform {e : Engine} {op : Operation} (h : e.comesToNothing op = true) :
    (e.perform op).forgetEvents = e.forgetEvents ∧
      ∃ notes, (e.perform op).events = e.events ++ notes ∧
        ∀ entry ∈ notes, entry.2 = .startIgnored ∨ entry.2 = .startRefused := by
  cases op with
  | start script lineDelay =>
    have hstart : e.perform (.start script lineDelay) = e.record .startIgnored :=
      congrArg Prod.fst (start_of_running h script lineDelay)
    rw [hstart]
    exact ⟨rfl, [(e.stage.now, .startIgnored)], events_record e .startIgnored, by simp⟩
  | startOutside =>
    exact ⟨rfl, [(e.stage.now, .startRefused)], events_record e .startRefused, by simp⟩
  | stop =>
    have hstop : e.perform .stop = e := stop_of_idle (by simpa [comesToNothing] using h)
    rw [hstop]
    exact ⟨rfl, [], (List.append_nil _).symm, by simp⟩
  | onFinished callback => cases h
  | advance span rounds => cases h
  | yield rounds => cases h
  | wait run rounds => cases h

/-- No run is started by an operation that comes to nothing, and none is told of. -/
theorem startedBy_of_comesToNothing {e : Engine} {op : Operation}
    (h : e.comesToNothing op = true) : e.startedBy op = none ∧ e.toldBy op = none := by
  cases op with
  | start script lineDelay =>
    exact ⟨congrArg Prod.snd (start_of_running h script lineDelay), rfl⟩
  | wait run rounds => cases h
  | _ => exact ⟨rfl, rfl⟩

/-- A start that is refused and a stop of an idle engine are invisible. Inserted anywhere into
a history of any engine, such an operation leaves all other observations as they are: the
status, the cursor and the time after every operation, the events with their times, what those
who wait are told, and which starts succeed. It is itself observed to start nothing and to
change nothing, and the only event with it is a note that a start did not succeed. -/
theorem eraseIdx_observations (e : Engine) (before after : List Operation) (op : Operation)
    (h : (e.performAll before).comesToNothing op = true) :
    (e.observations (before ++ op :: after)).eraseIdx before.length =
        e.observations (before ++ after) ∧
      ∃ notes, (e.observations (before ++ op :: after))[before.length]? = some
          { started := none
            told := none
            running := (e.performAll before).isRunning
            cursor := (e.performAll before).cursor?
            now := (e.performAll before).stage.now
            outcomes := (e.performAll before).outcomes
            events := notes } ∧
        ∀ entry ∈ notes, entry.2 = .startIgnored ∨ entry.2 = .startRefused := by
  obtain ⟨hforget, notes, hevents, hnotes⟩ := forgetEvents_perform h
  obtain ⟨hstarted, htold⟩ := startedBy_of_comesToNothing h
  have hlength : before.length = (e.observations before).length :=
    (length_observations e before).symm
  rw [observations_append, observations_append, observations, hlength]
  constructor
  · rw [List.eraseIdx_append_of_length_le (Nat.le_refl _), Nat.sub_self, List.eraseIdx_cons_zero]
    -- What comes later is observed of an engine that differs in its past events only.
    rw [← observations_forgetEvents ((e.performAll before).perform op), hforget,
      observations_forgetEvents]
  · refine ⟨notes, ?_, hnotes⟩
    rw [List.getElem?_append_right (Nat.le_refl _), Nat.sub_self, List.getElem?_cons_zero, observe,
      hstarted, htold, hevents, List.drop_left]
    -- Status, cursor, time and outcomes are no events.
    have hrunning := congrArg (fun e' : Engine => e'.isRunning) hforget
    have hcursor := congrArg (fun e' : Engine => e'.cursor?) hforget
    have hnow := congrArg (fun e' : Engine => e'.stage.now) hforget
    have houtcomes := congrArg (fun e' : Engine => e'.outcomes) hforget
    rw [Option.some_inj, Observation.mk.injEq]
    exact ⟨rfl, rfl, hrunning, hcursor, hnow, houtcomes, rfl⟩

/-- A start in the middle of a run that waits and then presses a key. It is answered with no
run, and the run goes on to its end, after which the next start succeeds. -/
theorem eraseIdx_observations_second_start : ∃ (script : Script) (before after : List Operation),
    script.instructions.map Instruction.name = ["Wait", "KeyDown"] ∧
    ((Engine.new .zero .plain).performAll before).comesToNothing (.start script .zero) = true ∧
    ((Engine.new .zero .plain).observations
        (before ++ .start script .zero :: after)).eraseIdx before.length =
      (Engine.new .zero .plain).observations (before ++ after) ∧
    ((Engine.new .zero .plain).observations (before ++ .start script .zero :: after)).map
        (fun o => (o.started, o.cursor, o.now, o.outcomes)) =
      [(some 0, some 0, 0, []), (none, some 0, 0, []), (none, some 0, 0, []),
        (none, none, 5, [.completed]), (some 1, some 0, 5, [.completed])] := by
  refine ⟨⟨[⟨1, ["5"], .wait (.ofMillis 5) (.ofMillis 5)⟩, ⟨2, ["a"], .keyDown (.char 'a')⟩], 2⟩,
    [.start ⟨[⟨1, ["5"], .wait (.ofMillis 5) (.ofMillis 5)⟩, ⟨2, ["a"], .keyDown (.char 'a')⟩],
      2⟩ .zero, .yield 1], [.wait 0 4, .start ⟨[], 0⟩ .zero], rfl, rfl,
    (eraseIdx_observations _ _ _ _ rfl).1, by decide +kernel⟩

end Engine

end InputScript
