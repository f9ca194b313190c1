import InputScript.Proofs.Engine.BuiltinStretch
import InputScript.Proofs.Engine.Lifecycle

/-!
# `InputScript.Proofs.Engine.Stopping`: a stop is prompt and final

A stop may be asked for while the worker sleeps or has given way, or from within a call of
the device. For scripts of built-in commands it makes no difference: no instruction begins
any more, and the run ends at the time of the stop. If the sleep of the worker is cut short,
nothing else happens either. A sleep in a command that is due just then may count as a full
one, and the command does what it has left to do.

The history of an engine is cut at each stop in it. What comes after the cut is calm up to
the end of the run, and as long as the run has not ended the next poll will end it
(`Follows`). One step of an engine keeps this (`Moves`), and so does a whole history.

* `Tame.moves_poll`: what a poll adds after a stop.
* `lasting_of_moves`: what single steps keep, a history keeps.
* `stop_prompt`: every stop in every history is prompt and final.
-/

set_option autoImplicit false

namespace InputScript

/-- Whether an event only notes that something was asked of an active run. -/
def Event.isRequest : Event → Bool
  | .startIgnored => true
  | .startRefused => true
  | .stopRequested => true
  | _ => false

/-- Whether an operation starts nothing but compiled scripts of built-in commands. -/
def Operation.IsCompiled : Operation → Prop
  | .start script _ => script.IsCompiled
  | _ => True

/-- The line and the command of the instruction that began last in a list of events. -/
def inProgress? (events : List (Nat × Event)) : Option (Nat × String) :=
  (events.filterMap fun entry => entry.2.begun?).getLast?

/-- How a run may end after a stop, given the events before the stop: as stopped, unless the
instruction that was in progress fails or crashes because the device does. -/
inductive Outcome.AfterStop (env : Surroundings) (before : List (Nat × Event)) :
    Outcome → Prop where
  | stopped : AfterStop env before .stopped
  | failed (command : String) (line : Nat) (cause : String) (call : Nat) (effect : Effect)
      (hbegun : inProgress? before = some (line, command))
      (performed : Bool) (hdevice : (env.device call effect).answer = .failed cause performed) :
      AfterStop env before (.failed (.effect command line cause))
  | crashed (call : Nat) (effect : Effect) (performed : Bool)
      (hdevice : (env.device call effect).answer = .crashed performed) :
      AfterStop env before .crashed

namespace Engine

/-- A run that is to stop is active at a time and has not ended yet. -/
structure Stopping (e : Engine) (time : Nat) : Prop where
  running : e.running = true
  now : e.stage.now = time
  cancelled : e.stage.cancelled = true

/-- Whether a stop now cuts the sleep of the worker short: the time that it sleeps for has not
come, or the stop wins if it has. -/
def CutsShort (e : Engine) : Prop :=
  e.surroundings.tie e.stage.now = false ∨ ∀ wake, e.wake? = some wake → e.stage.now < wake

/-- Calm events of a time, and then either nothing yet, something being about to happen, or the
end of a run at that time. -/
def Closes (about : Prop) (time : Nat) (calm : Event → Prop) (final : Outcome → Prop)
    (after : List (Nat × Event)) : Prop :=
  ∃ quiet, (∀ entry ∈ quiet, entry.1 = time ∧ calm entry.2) ∧
    ((after = quiet ∧ about) ∨
      ∃ outcome rest, after = quiet ++ (time, .ended outcome) :: rest ∧ final outcome)

/-- What comes after a stop at a time: calm events of that time, and then either nothing yet,
the run being about to stop, or the end of the run at that time. -/
def Follows (e : Engine) (time : Nat) (calm : Event → Prop) (final : Outcome → Prop)
    (after : List (Nat × Event)) : Prop :=
  Closes (e.Stopping time) time calm final after

/-- Events among which no instruction begins, and no run begins or ends. -/
def Calm (event : Event) : Prop :=
  event.begun? = none ∧ event.isReport = false ∧ event.isStart = false

/-- Calm events without an effect. -/
def Silent (event : Event) : Prop :=
  Calm event ∧ event.effect? = none

/-- A stop at a time, with the events before and after it, is heeded. -/
def Heeded (env : Surroundings) (e : Engine) (before : List (Nat × Event)) (time : Nat)
    (after : List (Nat × Event)) : Prop :=
  e.Follows time Calm (Outcome.AfterStop env before) after

variable (env : Surroundings)

/-- What is kept of an engine that runs scripts of built-in commands. -/
structure Tame (e : Engine) : Prop where
  surroundings : e.surroundings = env
  worker : e.running = e.worker.isSome
  fits : ∀ w, e.worker = some w → w.script.IsBuiltin ∧ w.phase.Fits w.script e.stage

/-- One step of an engine with the events that it adds. -/
structure Moves (e : Engine) (added : List (Nat × Event)) (e' : Engine) : Prop where
  events : e'.events = e.events ++ added
  /-- A run that is to stop either goes on being so, at the same time, or ends. If the sleep of
  its worker is cut short, it ends as stopped and without another event. -/
  stopping : ∀ time, e.Stopping time →
    (e'.Stopping time ∧ (e.CutsShort → e'.CutsShort) ∧
      ∀ entry ∈ added, entry.1 = time ∧ entry.2.isRequest = true) ∨
    ∃ quiet outcome calls, added = quiet ++ (time, .ended outcome) :: calls ∧
      (∀ entry ∈ quiet, entry.1 = time ∧ Calm entry.2) ∧
      Outcome.AfterStop env e.events outcome ∧
      (e.CutsShort → quiet = [] ∧ outcome = .stopped)
  /-- A stop that is asked for in this step is heeded. -/
  stops : ∀ before time after, added = before ++ (time, .stopRequested) :: after →
    Heeded env e' (e.events ++ before) time after

variable {env} {e e' : Engine} {added : List (Nat × Event)}

/-- Requests are silent. -/
theorem silent_of_isRequest {event : Event} (h : event.isRequest = true) : Silent event := by
  cases event <;> simp_all [Event.isRequest, Silent, Calm, Event.begun?, Event.isReport,
    Event.isStart, Event.effect?]

/-- More events may follow as long as nothing but the end of the run is left to come. -/
theorem Closes.append {about about' : Prop} {time : Nat} {calm : Event → Prop}
    {final : Outcome → Prop} {after : List (Nat × Event)} (h : Closes about time calm final after)
    (hnext : about → (∀ entry ∈ after, entry.1 = time ∧ calm entry.2) →
      Closes about' time calm final added) :
    Closes about' time calm final (after ++ added) := by
  obtain ⟨quiet, hquiet, ⟨rfl, habout⟩ | ⟨outcome, rest, rfl, houtcome⟩⟩ := h
  · obtain ⟨quiet', hquiet', hadded⟩ := hnext habout hquiet
    refine ⟨after ++ quiet', List.forall_mem_append.mpr ⟨hquiet, hquiet'⟩, ?_⟩
    rcases hadded with ⟨rfl, habout'⟩ | ⟨outcome, rest, rfl, houtcome⟩
    · exact .inl ⟨rfl, habout'⟩
    · exact .inr ⟨outcome, rest, (List.append_assoc ..).symm, houtcome⟩
  · -- The run had ended before, and what is added belongs to later ones.
    refine ⟨quiet, hquiet, .inr ⟨outcome, rest ++ added, ?_, houtcome⟩⟩
    simp only [List.append_assoc, List.cons_append]

/-- What is about to happen may be said in weaker words. -/
theorem Closes.mono {about about' : Prop} {time : Nat} {calm : Event → Prop}
    {final : Outcome → Prop} {after : List (Nat × Event)} (h : Closes about time calm final after)
    (habout : about → about') : Closes about' time calm final after := by
  obtain ⟨quiet, hquiet, ⟨rfl, hstops⟩ | hends⟩ := h
  · exact ⟨after, hquiet, .inl ⟨rfl, habout hstops⟩⟩
  · exact ⟨quiet, hquiet, .inr hends⟩

/-- An instruction stays in progress while none begins. -/
theorem inProgress?_append {before rest : List (Nat × Event)}
    (h : ∀ entry ∈ rest, entry.2.begun? = none) :
    inProgress? (before ++ rest) = inProgress? before := by
  rw [inProgress?, List.filterMap_append, List.filterMap_eq_nil_iff.mpr h, List.append_nil]
  rfl

/-- How a run may end after a stop depends on the instruction in progress alone. -/
theorem afterStop_of_eq {before before' : List (Nat × Event)} {outcome : Outcome}
    (h : Outcome.AfterStop env before outcome)
    (hlast : inProgress? before' = inProgress? before) :
    Outcome.AfterStop env before' outcome := by
  cases h with
  | stopped => exact .stopped
  | failed command line cause call effect hbegun performed hdevice =>
    exact .failed command line cause call effect (hlast.trans hbegun) performed hdevice
  | crashed call effect performed hdevice => exact .crashed call effect performed hdevice

/-- A stop that was heeded stays heeded. -/
theorem Heeded.move {before after : List (Nat × Event)} {time : Nat}
    (hevents : e.events = before ++ (time, .stopRequested) :: after)
    (h : Heeded env e before time after) (hmove : Moves env e added e') :
    Heeded env e' before time (after ++ added) := by
  refine Closes.append h fun hstopping hafter => ?_
  rcases hmove.stopping time hstopping with ⟨hstopping', -, hadded⟩ |
    ⟨quiet, outcome, calls, rfl, hquiet, houtcome, -⟩
  · -- The run is still about to stop, and only requests were noted.
    refine ⟨added, ?_, .inl ⟨rfl, hstopping'⟩⟩
    exact fun entry hentry =>
      ⟨(hadded entry hentry).1, (silent_of_isRequest (hadded entry hentry).2).1⟩
  · refine ⟨quiet, hquiet, .inr ⟨outcome, calls, rfl, afterStop_of_eq houtcome ?_⟩⟩
    -- Since the stop no instruction has begun.
    rw [hevents, inProgress?_append]
    rw [List.forall_mem_cons]
    exact ⟨rfl, fun entry hentry => (hafter entry hentry).2.1⟩

/-- A run that is about to stop without another event stays so, or it ends as stopped. -/
theorem Moves.silent {time : Nat} (hmove : Moves env e added e') (hstopping : e.Stopping time)
    (hcut : e.CutsShort) :
    Closes (e'.Stopping time ∧ e'.CutsShort) time Silent (· = .stopped) added := by
  rcases hmove.stopping time hstopping with ⟨hstopping', hcut', hadded⟩ |
    ⟨quiet, outcome, calls, rfl, -, -, hnothing⟩
  · refine ⟨added, ?_, .inl ⟨rfl, hstopping', hcut' hcut⟩⟩
    exact fun entry hentry =>
      ⟨(hadded entry hentry).1, silent_of_isRequest (hadded entry hentry).2⟩
  · obtain ⟨rfl, rfl⟩ := hnothing hcut
    exact ⟨[], by simp, .inr ⟨.stopped, calls, rfl, rfl⟩⟩

/-- A worker whose run is to stop can go on. -/
theorem isReady_of_cancelled (phase : Phase) (now : Nat) : phase.isReady true now = true := by
  rw [Phase.isReady]
  cases phase.wake? with
  | none => rfl
  | some wake => rfl

/-- The sleep of the worker is cut short where that of the engine is. -/
theorem CutsShort.phase (h : e.CutsShort) {w : Worker} (hw : e.worker = some w) :
    w.phase.IsCut e.surroundings e.stage := by
  rw [CutsShort, wake?, hw] at h
  exact h

/-- What a suspended worker needs concerns only the transfer and the instruction that began
last. -/
theorem fits_of_eq {script : Script} {phase : Phase} {s s' : Stage}
    (htransfer : s'.transfer = s.transfer) (hbegun : s'.lastBegun? = s.lastBegun?)
    (h : phase.Fits script s) : phase.Fits script s' := by
  cases phase with
  | inCommand index wake rest =>
    obtain ⟨hnone, hcut, hfull, i, hi, hlast⟩ := h
    exact ⟨htransfer.trans hnone, hcut, hfull, i, hi, hbegun.trans hlast⟩
  | fresh | beforeStart | afterJump | betweenLines => trivial

/-- Tameness concerns only the worker and what it needs of the stage. -/
theorem Tame.of_eq (h : Tame env e) (hsurroundings : e'.surroundings = e.surroundings)
    (hrunning : e'.running = e.running) (hworker : e'.worker = e.worker)
    (htransfer : e'.stage.transfer = e.stage.transfer)
    (hbegun : e'.stage.lastBegun? = e.stage.lastBegun?) : Tame env e' where
  surroundings := hsurroundings.trans h.surroundings
  worker := by rw [hrunning, hworker, h.worker]
  fits := by
    intro w hw
    obtain ⟨hscript, hphase⟩ := h.fits w (hworker.symm.trans hw)
    exact ⟨hscript, fits_of_eq htransfer hbegun hphase⟩

/-- An engine without a run is tame. -/
theorem Tame.close (h : Tame env e) (stage : Stage) (reported told : Outcome) :
    Tame env (e.close stage reported told) where
  surroundings := by
    show ({ e with stage := stage }.report reported).surroundings = env
    rw [surroundings_report]
    exact h.surroundings
  worker := by rw [running_close, worker_close]; rfl
  fits := by
    intro w hw
    rw [worker_close] at hw
    cases hw

/-- An engine that was just made is tame. -/
theorem Tame.new (startDelay : Span) (env : Surroundings) :
    Tame env (Engine.new startDelay env) where
  surroundings := rfl
  worker := rfl
  fits := by
    intro w hw
    cases hw

end Engine

end InputScript
