import InputScript.Proofs.Engine.Lifecycle
import InputScript.Proofs.LineMachine.Stretch

/-!
# `InputScript.Proofs.LineMachine.Refinement`: an engine runs a script as the line machine does

A compiled script was started on an idle engine, on a device that performs everything, and
nobody stops it. Whatever else is done, the engine stays with the line machine: what the run
has traced lies between two successive states of the machine, it ends as the machine does and
at the same time, and given time it gets as far as the machine, which may run for ever.

* `Active.poll`: while the run is active, a poll takes it on with the machine.
* `Active.catchUp`: given time, the run reaches every state of the machine.
* `run_refines_line_machine`: the two together, for every compiled script.
-/

set_option autoImplicit false

namespace InputScript

/-- What has happened in the run that began in `started`: its events up to its end, and the
end if it has come. -/
structure RunSoFar (started e : Engine) (part : List (Nat × Event))
    (ending : Option (Nat × Outcome)) : Prop where
  quiet : ∀ entry ∈ part, entry.2.isReport = false
  events : match ending with
    | none => e.isRunning = true ∧ e.events = started.events ++ part
    | some (time, outcome) =>
      ∃ rest, e.events = started.events ++ (part ++ (time, .ended outcome) :: rest)

namespace LineMachine

open Engine (isReady wake?)

/-- An engine refines a machine in the run that began in `started`. -/
structure Refined (started : Engine) (machine : Nat → Config) (e : Engine) : Prop where
  /-- The run is always between two successive states of the machine. If it has ended, the
  machine ends as well, with the same outcome, at the same time and with the same trace. -/
  between : ∃ part ending n, RunSoFar started e part ending ∧
    (machine n).trace <+: traced part ∧ traced part <+: (machine (n + 1)).trace ∧
    ∀ time outcome, ending = some (time, outcome) →
      (machine (n + 1)).outcome = some outcome ∧ (machine (n + 1)).now = time ∧
        traced part = (machine (n + 1)).trace
  /-- Given time, the run gets as far as the machine. Where the machine has ended, the run
  ends with the same outcome and at the same time. -/
  catchesUp : ∀ n, ∃ rounds part ending, RunSoFar started (e.finishRun rounds) part ending ∧
    (machine n).trace <+: traced part ∧
    ∀ outcome, (machine n).outcome = some outcome → ending = some ((machine n).now, outcome)

namespace Setting

variable (r : Setting) (started : Engine)

/-- The run is active and tracks the machine. -/
structure Active (n rank : Nat) (e : Engine) : Prop where
  surroundings : e.surroundings = r.env
  startDelay : e.startDelay = r.startDelay
  running : e.running = true
  worker : ∃ phase, e.worker = some ⟨r.script, r.lineDelay, phase⟩ ∧
    r.Tracks n rank e.stage phase
  part : ∃ part, (∀ entry ∈ part, entry.2.isReport = false) ∧
    e.events = started.events ++ part

/-- The run has ended as the machine does in its next step. -/
structure Ended (n : Nat) (e : Engine) : Prop where
  unended : (r.machine n).outcome = none
  part : ∃ part outcome rest, (∀ entry ∈ part, entry.2.isReport = false) ∧
    (r.machine (n + 1)).outcome = some outcome ∧ traced part = (r.machine (n + 1)).trace ∧
    e.events =
      started.events ++ (part ++ ((r.machine (n + 1)).now, .ended outcome) :: rest)

/-- The run is where the machine is, active or ended. -/
def Accompanies (e : Engine) : Prop :=
  (∃ n rank, r.Active started n rank e) ∨ ∃ n, r.Ended started n e

variable {r started} {e e' : Engine} {n rank : Nat}

/-- Tracking concerns only the time, the trace, the flag and the transfer. -/
theorem tracks_of_eq {s s' : Stage} {phase : Phase} (h : r.Tracks n rank s phase)
    (hnow : s'.now = s.now) (hcancelled : s'.cancelled = s.cancelled)
    (htransfer : s'.transfer = s.transfer) (htrace : s'.trace = s.trace) :
    r.Tracks n rank s' phase := by
  have hlevel (hl : r.Level n s) : r.Level n s' :=
    ⟨hcancelled.trans hl.goes, hl.unended, htrace.trans hl.trace⟩
  cases phase with
  | fresh =>
    obtain ⟨hn, hl, hrest⟩ := h
    exact ⟨hn, hlevel hl, by rw [hnow]; exact hrest⟩
  | beforeStart wake =>
    obtain ⟨hn, hl, hrest⟩ := h
    exact ⟨hn, hlevel hl, by rw [hnow]; exact hrest⟩
  | inCommand index wake rest =>
    obtain ⟨hgoes, hnone, hrest⟩ := h
    exact ⟨hcancelled.trans hgoes, htransfer.trans hnone, by rw [hnow, htrace]; exact hrest⟩
  | afterJump line =>
    obtain ⟨hl, hrest⟩ := h
    exact ⟨hlevel hl, by rw [hnow]; exact hrest⟩
  | betweenLines wake next =>
    obtain ⟨hl, hselects, hlt, hrest⟩ := h
    exact ⟨hlevel hl, hselects, hlt, by rw [hnow]; exact hrest⟩

/-- The clock may move on while the worker sleeps, up to the time it sleeps for. -/
theorem tracks_setClock {s : Stage} {phase : Phase} {time wake : Nat}
    (h : r.Tracks n rank s phase) (hwake : phase.wake? = some wake) (htime : time ≤ wake) :
    r.Tracks n rank { s with now := time } phase := by
  cases phase with
  | fresh => cases hwake
  | afterJump line => cases hwake
  | beforeStart wake' =>
    cases hwake
    obtain ⟨hn, hlevel, -, hrest⟩ := h
    exact ⟨hn, ⟨hlevel.goes, hlevel.unended, hlevel.trace⟩, htime, hrest⟩
  | inCommand index wake' rest =>
    cases hwake
    obtain ⟨hgoes, hnone, -, hrest⟩ := h
    exact ⟨hgoes, hnone, htime, hrest⟩
  | betweenLines wake' next =>
    cases hwake
    obtain ⟨hlevel, hselects, hlt, -, hrest⟩ := h
    exact ⟨⟨hlevel.goes, hlevel.unended, hlevel.trace⟩, hselects, hlt, htime, hrest⟩

/-- Later events do not change how the run has ended. -/
theorem Ended.append (h : r.Ended started n e) {added : List (Nat × Event)}
    (hevents : e'.events = e.events ++ added) : r.Ended started n e' := by
  obtain ⟨hunended, part, outcome, rest, hquiet, houtcome, htrace, hpart⟩ := h
  refine ⟨hunended, part, outcome, rest ++ added, hquiet, houtcome, htrace, ?_⟩
  rw [hevents, hpart]
  simp only [List.append_assoc, List.cons_append]

/-- One more event that is no part of the trace leaves the run where it is. -/
theorem Active.record (h : r.Active started n rank e) {event : Event}
    (hreport : event.isReport = false) (htraced : event.isTraced = false) :
    r.Active started n rank (e.record event) := by
  obtain ⟨hsurroundings, hdelay, hrunning, ⟨phase, hworker, htracks⟩, part, hquiet, hevents⟩ := h
  have htrace : (e.stage.record event).trace = e.stage.trace := by
    rw [Stage.trace_record, traced]
    simp [htraced]
  refine ⟨hsurroundings, hdelay, hrunning, ⟨phase, hworker, ?_⟩,
    part ++ [(e.stage.now, event)], ?_, ?_⟩
  · exact tracks_of_eq htracks rfl rfl rfl htrace
  · intro entry hentry
    rcases List.mem_append.mp hentry with hentry | hentry
    · exact hquiet entry hentry
    · rw [List.mem_singleton.mp hentry]
      exact hreport
  · rw [Engine.events_record, hevents, List.append_assoc]

/-- The trace is made of what was traced before the run and in it. -/
theorem trace_of_events (hearlier : r.earlier = traced started.events)
    {part : List (Nat × Event)} (hevents : e.events = started.events ++ part) :
    e.stage.trace = r.earlier ++ traced part := by
  show traced e.events = _
  rw [hevents, hearlier]
  exact List.filter_append ..

/-- While the run is active a poll takes it on with the machine: the machine has gone on, or
it waits for a worker that has less left to do; or both have ended. -/
theorem Active.poll (hearlier : r.earlier = traced started.events)
    (h : r.Active started n rank e) (hready : e.isReady = true) :
    (∃ m rank', r.Active started m rank' e.poll ∧ (n < m ∨ n = m ∧ rank' < rank)) ∨
      ∃ m, n ≤ m ∧ r.Ended started m e.poll := by
  obtain ⟨hsurroundings, hdelay, hrunning, ⟨phase, hworker, htracks⟩, part, hquiet, hevents⟩ := h
  have hlands := lands_poll htracks (by simpa [isReady, hworker] using hready)
  have hwork {stage : Stage} {new : List (Nat × Event)} (hnew : e.stage.Added new stage) :
      ∀ entry ∈ part ++ new.reverse, entry.2.isReport = false := by
    intro entry hentry
    rcases List.mem_append.mp hentry with hentry | hentry
    · exact hquiet entry hentry
    · exact (hnew.quiet entry hentry).1
  rw [← hsurroundings, ← hdelay] at hlands
  have hsame {w : Worker} (hw : e.worker = some w) : w = ⟨r.script, r.lineDelay, phase⟩ :=
    Option.some.inj (hw.symm.trans hworker)
  -- Whatever the poll does, the stretch of the worker has landed where the machine is.
  have hpolled := e.polled
  generalize e.poll = after at hpolled ⊢
  cases hpolled with
  | waits hwaits =>
    rw [hready] at hwaits
    cases hwaits
  | suspends w stage phase' new hs =>
    obtain rfl := hsame hs.worker
    rw [hs.poll] at hlands
    obtain ⟨m, rank', htracks', hless⟩ := hlands
    refine .inl ⟨m, rank', ⟨hsurroundings, hdelay, hrunning, ⟨phase', rfl, htracks'⟩, _,
      hwork hs.added, ?_⟩, hless⟩
    show stage.history.reverse = _
    rw [Engine.events_of_added hs.added, hevents, List.append_assoc]
  | ends w stage outcome new hs =>
    obtain rfl := hsame hs.worker
    rw [hs.poll] at hlands
    obtain ⟨m, hm, hends⟩ := hlands
    have hpart : ({ e with stage := stage } : Engine).events =
        started.events ++ (part ++ new.reverse) := by
      rw [← List.append_assoc, ← hevents]
      exact Engine.events_of_added hs.added
    refine .inr ⟨m, hm, hends.unended, part ++ new.reverse, outcome,
      e.announcement e.stage.now outcome, hwork hs.added, hends.outcome,
      List.append_cancel_left ((trace_of_events hearlier hpart).symm.trans hends.trace), ?_⟩
    rw [Engine.events_close_of_added hs.added, hevents, hends.now, hs.added.now]
    simp only [List.append_assoc]
  | crashes w stage new hs =>
    obtain rfl := hsame hs.worker
    rw [hs.poll] at hlands
    exact hlands.elim

/-- While the worker sleeps the clock may move on. -/
theorem Active.setClock (h : r.Active started n rank e) {time : Nat}
    (hwaits : e.isReady = false) (htime : ∀ wake, e.wake? = some wake → time ≤ wake) :
    r.Active started n rank (e.setClock time) := by
  obtain ⟨hsurroundings, hdelay, hrunning, ⟨phase, hworker, htracks⟩, hpart⟩ := h
  refine ⟨hsurroundings, hdelay, hrunning, ⟨phase, hworker, ?_⟩, hpart⟩
  cases hwake : phase.wake? with
  | none => simp [isReady, hworker, Phase.isReady, hwake] at hwaits
  | some wake =>
    apply tracks_setClock htracks hwake
    apply htime
    simp [wake?, hworker, hwake]

/-- Everything but a stop leaves the run where the machine is. -/
theorem lasting_accompanies (hearlier : r.earlier = traced started.events) :
    Engine.Lasting (· ≠ .stop) (r.Accompanies started) where
  poll := by
    rintro e (⟨n, rank, h⟩ | ⟨n, h⟩)
    · by_cases hready : e.isReady = true
      · rcases h.poll hearlier hready with ⟨m, rank', h', -⟩ | ⟨m, -, h'⟩
        · exact .inl ⟨m, rank', h'⟩
        · exact .inr ⟨m, h'⟩
      · rw [Engine.poll_of_waits (by simpa using hready)]
        exact .inl ⟨n, rank, h⟩
    · obtain ⟨added, hadded⟩ := e.events_poll
      exact .inr ⟨n, h.append hadded⟩
  setClock := by
    rintro e time (⟨n, rank, h⟩ | ⟨n, h⟩) hwaits _ htime
    · exact .inl ⟨n, rank, h.setClock hwaits htime⟩
    · have hnothing : (e.setClock time).events = e.events ++ [] := (List.append_nil _).symm
      exact .inr ⟨n, h.append hnothing⟩
  start := by
    rintro e script lineDelay _ (⟨n, rank, h⟩ | ⟨n, h⟩)
    · rw [Engine.start_of_running h.running]
      exact .inl ⟨n, rank, h.record rfl rfl⟩
    · by_cases hrunning : e.running = true
      · rw [Engine.start_of_running hrunning]
        exact .inr ⟨n, h.append (e.events_record .startIgnored)⟩
      · rw [Engine.start_of_idle (by simpa using hrunning)]
        exact .inr ⟨n, h.append (e.events_launch script lineDelay)⟩
  startOutside := by
    rintro e (⟨n, rank, h⟩ | ⟨n, h⟩)
    · exact .inl ⟨n, rank, h.record rfl rfl⟩
    · exact .inr ⟨n, h.append (e.events_record .startRefused)⟩
  stop := fun _ hstop => absurd rfl hstop
  onFinished := by
    rintro e callback (⟨n, rank, h⟩ | ⟨n, h⟩)
    · exact .inl ⟨n, rank, h.surroundings, h.startDelay, h.running, h.worker, h.part⟩
    · have hnothing : (e.onFinished callback).events = e.events ++ [] :=
        (List.append_nil _).symm
      exact .inr ⟨n, h.append hnothing⟩

/-! ### Catching up -/

/-- One poll, after the time that the worker sleeps for, takes an active run on. -/
theorem Active.goOn (hearlier : r.earlier = traced started.events)
    (h : r.Active started n rank e) :
    ∃ rounds, (∃ m rank', r.Active started m rank' (e.finishRun rounds) ∧
        (n < m ∨ n = m ∧ rank' < rank)) ∨
      ∃ m, n ≤ m ∧ r.Ended started m (e.finishRun rounds) := by
  have hrunning : e.isRunning = true := h.running
  by_cases hready : e.isReady = true
  · have hrounds : e.finishRun 1 = e.poll := by
      rw [Engine.finishRun, if_pos hrunning, if_pos hready]
      rfl
    exact ⟨1, hrounds ▸ h.poll hearlier hready⟩
  · have hwaits : e.isReady = false := by simpa using hready
    obtain ⟨phase, hworker, -⟩ := h.worker
    obtain ⟨wake, hwake⟩ : ∃ wake, e.wake? = some wake := by
      cases hphase : phase.wake? with
      | none => simp [isReady, hworker, Phase.isReady, hphase] at hwaits
      | some wake => exact ⟨wake, by simp [wake?, hworker, hphase]⟩
    have hactive : r.Active started n rank (e.setClock wake) :=
      h.setClock hwaits fun other hother =>
        Nat.le_of_eq (Option.some.inj (hwake.symm.trans hother))
    -- When its time has come the worker can go on.
    have hready' : (e.setClock wake).isReady = true := by
      have hphase : phase.wake? = some wake := by simpa [wake?, hworker] using hwake
      simp [isReady, Engine.setClock, hworker, Phase.isReady, hphase]
    have hrounds : e.finishRun 2 = (e.setClock wake).poll := by
      rw [Engine.finishRun, if_pos hrunning, if_neg hready, hwake]
      dsimp only
      rw [Engine.finishRun, if_pos (show (e.setClock wake).isRunning = true from hrunning),
        if_pos hready']
      rfl
    exact ⟨2, hrounds ▸ hactive.poll hearlier hready'⟩

/-- Given time, the machine need not wait: it goes on or the run ends. -/
theorem Active.leave (hearlier : r.earlier = traced started.events)
    (h : r.Active started n rank e) :
    ∃ rounds, (∃ m rank', r.Active started m rank' (e.finishRun rounds) ∧ n < m) ∨
      ∃ m, n ≤ m ∧ r.Ended started m (e.finishRun rounds) := by
  induction rank using Nat.strongRecOn generalizing e with
  | ind rank ih =>
    obtain ⟨rounds, ⟨m, rank', h', hless | ⟨rfl, hless⟩⟩ | hended⟩ := h.goOn hearlier
    · exact ⟨rounds, .inl ⟨m, rank', h', hless⟩⟩
    · -- The machine has waited, but the rank got smaller.
      obtain ⟨more, hmore⟩ := ih rank' hless h'
      exact ⟨rounds + more, Engine.finishRun_add e rounds more ▸ hmore⟩
    · exact ⟨rounds, .inr hended⟩

/-- Given time, an active run gets as far as any state of the machine, or it ends. -/
theorem Active.catchUp (hearlier : r.earlier = traced started.events)
    (h : r.Active started n rank e) (target : Nat) :
    ∃ rounds, (∃ m rank', r.Active started m rank' (e.finishRun rounds) ∧ target ≤ m) ∨
      ∃ m, r.Ended started m (e.finishRun rounds) := by
  induction hgap : target - n using Nat.strongRecOn generalizing n rank e with
  | ind gap ih =>
    by_cases htarget : target ≤ n
    · exact ⟨0, .inl ⟨n, rank, h, htarget⟩⟩
    · obtain ⟨rounds, ⟨m, rank', h', hless⟩ | ⟨m, -, hended⟩⟩ := h.leave hearlier
      · obtain ⟨more, hmore⟩ := ih (target - m) (by omega) h' rfl
        exact ⟨rounds + more, Engine.finishRun_add e rounds more ▸ hmore⟩
      · exact ⟨rounds, .inr ⟨m, hended⟩⟩

/-! ### The refinement -/

/-- The trace at a place that tracks the machine lies between those of two states of it. -/
theorem between_of_tracks {s : Stage} {phase : Phase} (h : r.Tracks n rank s phase) :
    r.earlier ++ (r.machine n).trace <+: s.trace ∧
      s.trace <+: r.earlier ++ (r.machine (n + 1)).trace := by
  have hlevel (hl : r.Level n s) : r.earlier ++ (r.machine n).trace <+: s.trace ∧
      s.trace <+: r.earlier ++ (r.machine (n + 1)).trace := by
    rw [hl.trace]
    refine ⟨List.prefix_rfl, ?_⟩
    rw [List.prefix_append_right_inj]
    exact trace_run _ _ _ (Nat.le_succ n)
  cases phase with
  | fresh => exact hlevel h.2.1
  | beforeStart wake => exact hlevel h.2.1
  | inCommand index wake rest =>
    obtain ⟨-, -, -, -, hbefore, i, left, trace, -, -, -, hnext, htrace⟩ := h
    refine ⟨hbefore, ?_⟩
    rw [hnext, ← htrace]
    exact List.prefix_append _ _
  | afterJump line => exact hlevel h.1
  | betweenLines wake next => exact hlevel h.1

/-- The machine has not ended where the worker tracks it. -/
theorem unended_of_tracks {s : Stage} {phase : Phase} (h : r.Tracks n rank s phase) :
    (r.machine n).outcome = none := by
  cases phase with
  | fresh => exact h.2.1.unended
  | beforeStart wake => exact h.2.1.unended
  | inCommand index wake rest => exact h.2.2.2.1
  | afterJump line => exact h.1.unended
  | betweenLines wake next => exact h.1.unended

/-- While the run is active, what it has traced lies between two states of the machine. -/
theorem Active.runSoFar (hearlier : r.earlier = traced started.events)
    (h : r.Active started n rank e) : ∃ part, RunSoFar started e part none ∧
      (r.machine n).trace <+: traced part ∧ traced part <+: (r.machine (n + 1)).trace := by
  obtain ⟨phase, -, htracks⟩ := h.worker
  obtain ⟨part, hquiet, hevents⟩ := h.part
  obtain ⟨hbefore, hafter⟩ := between_of_tracks htracks
  rw [trace_of_events hearlier hevents, List.prefix_append_right_inj] at hbefore hafter
  exact ⟨part, ⟨hquiet, h.running, hevents⟩, hbefore, hafter⟩

/-- Where the run has ended, the machine has ended with the same trace. -/
theorem Ended.runSoFar (h : r.Ended started n e) : ∃ part outcome,
    RunSoFar started e part (some ((r.machine (n + 1)).now, outcome)) ∧
      (r.machine (n + 1)).outcome = some outcome ∧
      traced part = (r.machine (n + 1)).trace := by
  obtain ⟨-, part, outcome, rest, hquiet, houtcome, htrace, hevents⟩ := h
  exact ⟨part, outcome, ⟨hquiet, rest, hevents⟩, houtcome, htrace⟩

/-- An engine that is where the machine is refines it. -/
theorem Accompanies.refined (hearlier : r.earlier = traced started.events)
    (h : r.Accompanies started e) : Refined started r.machine e where
  between := by
    rcases h with ⟨n, rank, h⟩ | ⟨n, h⟩
    · obtain ⟨part, hpart, hbefore, hafter⟩ := h.runSoFar hearlier
      exact ⟨part, none, n, hpart, hbefore, hafter, by simp⟩
    · obtain ⟨part, outcome, hpart, houtcome, htrace⟩ := h.runSoFar
      refine ⟨part, _, n, hpart, ?_, ?_, ?_⟩
      · rw [htrace]
        exact trace_run _ _ _ (Nat.le_succ n)
      · exact htrace ▸ List.prefix_rfl
      · intro time outcome' hending
        cases hending
        exact ⟨houtcome, rfl, htrace⟩
  catchesUp := by
    intro target
    obtain ⟨rounds, hlater⟩ : ∃ rounds,
        (∃ m rank', r.Active started m rank' (e.finishRun rounds) ∧ target ≤ m) ∨
          ∃ m, r.Ended started m (e.finishRun rounds) := by
      rcases h with ⟨n, rank, h⟩ | ⟨n, h⟩
      · exact h.catchUp hearlier target
      · exact ⟨0, .inr ⟨n, h⟩⟩
    rcases hlater with ⟨m, rank', h', hle⟩ | ⟨m, h'⟩
    · obtain ⟨part, hpart, hbefore, -⟩ := h'.runSoFar hearlier
      refine ⟨rounds, part, none, hpart, (trace_run _ _ _ hle).trans hbefore, ?_⟩
      -- The machine has not ended before a state in which it goes on.
      intro outcome hended
      obtain ⟨phase, -, htracks⟩ := h'.worker
      have hstays : r.machine m = r.machine target := run_of_ended hended hle
      have hunended := unended_of_tracks htracks
      rw [hstays, hended] at hunended
      cases hunended
    · obtain ⟨part, outcome, hpart, houtcome, htrace⟩ := h'.runSoFar
      refine ⟨rounds, part, _, hpart, ?_, ?_⟩
      · rw [htrace]
        exact trace_run_of_ended houtcome target
      · intro outcome' hended
        have hsame : r.machine (m + 1) = r.machine target := run_eq_of_ended houtcome hended
        rw [hsame, hended] at houtcome
        rw [hsame, Option.some.inj houtcome]

end Setting

/-- An engine runs a compiled script as the line machine runs its text. The script has no
random pause, the device performs every effect, and nobody asks for a stop; whatever else is
done after the start, the run stays with the machine, and given time it gets as far. -/
theorem run_refines_line_machine {lines : List String} {script : Script}
    (hcompile : Catalog.builtin.compile lines = .ok script) (hfixed : script.IsFixed)
    (e : Engine) (hidle : e.isRunning = false)
    (hdevice : ∀ call effect, e.surroundings.device call effect = .done) (lineDelay : Span)
    (ops : List Operation) (hops : ∀ op ∈ ops, op ≠ .stop) :
    Refined (e.start script lineDelay).1
      (run e.surroundings.timer lines lineDelay
        (e.stage.now + e.surroundings.timer.wait e.startDelay))
      ((e.start script lineDelay).1.performAll ops) := by
  rw [Engine.start_of_idle hidle]
  dsimp only
  let started := e.launch script lineDelay
  -- The machine is compared from the end of the start delay on.
  let r : Setting := ⟨lines, script, hcompile, hfixed, lineDelay, e.startDelay, e.surroundings,
    hdevice, e.stage.now + e.surroundings.timer.wait e.startDelay, traced started.events⟩
  have hlevel : r.Level 0 started.stage := ⟨rfl, rfl, (List.append_nil _).symm⟩
  have hbegin : r.Active started 0 (r.size 0 + 2) started :=
    ⟨rfl, rfl, rfl, ⟨.fresh, rfl, rfl, hlevel, rfl, rfl⟩, [], by simp, (List.append_nil _).symm⟩
  have haccompanies : r.Accompanies started (started.performAll ops) :=
    (Setting.lasting_accompanies rfl).performAll hops (.inl ⟨0, _, hbegin⟩)
  exact haccompanies.refined rfl

/-- A jump over a line: the engine refines a machine that goes from the third line to the
fifth, with a line delay before every line but the first. -/
theorem run_refines_line_machine_jump : ∃ script,
    Catalog.builtin.compile ["MouseWheel 1", "", "Call 5", "MouseWheel 2", "MouseWheel 3"] =
      .ok script ∧
    (let machine := run .exact ["MouseWheel 1", "", "Call 5", "MouseWheel 2", "MouseWheel 3"]
      ⟨2000000⟩ 0
    let started := ((Engine.new .zero .plain).start script ⟨2000000⟩).1
    Refined started machine (started.performAll [.yield 1]) ∧
      (machine 4).outcome = some .completed ∧
      (machine 4).trace = [(0, .executing 1 "MouseWheel"), (0, .performed (.wheel 1)),
        (2, .executing 3 "Call"), (4, .executing 5 "MouseWheel"),
        (4, .performed (.wheel 3))]) := by
  have hcompile :
      Catalog.builtin.compile ["MouseWheel 1", "", "Call 5", "MouseWheel 2", "MouseWheel 3"] =
        .ok ⟨[⟨1, ["1"], .mouseWheel 1⟩, ⟨3, ["5"], .call 5⟩, ⟨4, ["2"], .mouseWheel 2⟩,
          ⟨5, ["3"], .mouseWheel 3⟩], 5⟩ := by
    with_unfolding_all rfl
  refine ⟨_, hcompile, ?_, ?_⟩
  · refine run_refines_line_machine hcompile ?_ (Engine.new .zero .plain) rfl ?_ _ _ ?_
    · simp [Script.IsFixed, Command.IsFixed]
    · intro call effect
      rfl
    · simp
  · decide +kernel

end LineMachine

end InputScript
