import InputScript.Proofs.Engine.Control
import InputScript.Proofs.Engine.Release
import Mathlib.Data.List.Induction

/-!
# `InputScript.Proofs.Engine.Verdict`: why a run ended as it did

Three things can keep a run of built-in commands from completing: the device refuses a call, a
stop is asked for while the run is active, or the script stops itself. A stop is asked for by an
operation or by the device in a call. A run keeps account of all of them: its stop flag is set
just if a stop was asked for, and the command that stops has begun only where the run is about to
end. So the outcome tells which of the three has happened in that very run.

* `Program.Gesture.run_account`: a gesture keeps the account.
* `Course.Accounted.work`: so does every step of the worker.
* `Course.shows_accounted`: so does every operation, where the stops among them are counted that
  find the run active.
* `Engine.outcome_sound`: what the outcome of a run says, whatever was done before and since.
-/

set_option autoImplicit false

namespace InputScript

open Program (Gesture)

/-! ### What can keep a run from completing -/

/-- Whether a call was not answered as it should be: it failed or crashed. -/
def Reply.Refuses (reply : Reply) : Prop :=
  reply.answer ≠ .done

/-- The effects that a run has asked the device for, performed or not. -/
def asksOf (events : List (Nat × Event)) : List Effect :=
  events.filterMap fun entry => entry.2.asked?

/-- What a device answers to effects that it is asked for one after the other, when it has been
asked a number of times before. -/
def replies (device : Device) (asked : Nat) : List Effect → List Reply
  | [] => []
  | effect :: rest => device (asked + 1) effect :: replies device (asked + 1) rest

/-- Whether the command that stops a run is among the instructions that have begun. -/
def StopBegun (part : List (Nat × Event)) : Prop :=
  ∃ time line, (time, .executing line Builtin.stop.name) ∈ part

/-- Whether one of the operations asked for a stop while the run that began in `started` was
active. -/
def Engine.StoppedDuring (started : Engine) (ops : List Operation) : Prop :=
  ∃ pre post part, ops = pre ++ .stop :: post ∧
    RunSoFar started (started.performAll pre) part none

/-- Whether a stop was asked for in one of the calls that a run has made, which began when the
device had been asked `first` times. -/
def StoppedInCall (device : Device) (first : Nat) (part : List (Nat × Event)) : Prop :=
  ∃ reply ∈ replies device first (asksOf part), reply.stops = true

/-- What the outcome of a run says. The run began when the device had been asked `first` times, and
its events, the calls among them, are `part`. Whether an operation asked it to stop is given as
`outside`. -/
structure Verdict (device : Device) (script : Script) (first : Nat) (outside : Prop)
    (part : List (Nat × Event)) (outcome : Outcome) : Prop where
  /-- It failed just if the device refused one of its calls. -/
  failed : (∃ error, outcome = .failed error) ↔
    ∃ reply ∈ replies device first (asksOf part), reply.Refuses
  /-- It was stopped just if no call was refused and a stop was asked for, by an operation, in a
  call of the device or by the script. -/
  stopped : outcome = .stopped ↔
    (∀ reply ∈ replies device first (asksOf part), ¬reply.Refuses) ∧
      (outside ∨ StoppedInCall device first part ∨ StopBegun part)
  /-- It completed just if none of this happened. -/
  completed : outcome = .completed ↔
    (∀ reply ∈ replies device first (asksOf part), ¬reply.Refuses) ∧
      ¬(outside ∨ StoppedInCall device first part ∨ StopBegun part)
  /-- Where it completed, control has passed the last instruction. -/
  past : outcome = .completed →
    ∃ index, script.control? part = some index ∧ script.length ≤ index

section Replies

variable {device : Device} {first time : Nat} {part new : List (Nat × Event)}

theorem asksOf_append (part new : List (Nat × Event)) :
    asksOf (part ++ new) = asksOf part ++ asksOf new :=
  List.filterMap_append

/-- Events of no call ask for nothing. -/
theorem asksOf_concat_of_none {event : Event} (h : event.asked? = none) :
    asksOf (part ++ [(time, event)]) = asksOf part := by
  simp [asksOf, h]

/-- An event that asks for no effect performs none. -/
theorem Event.effect?_of_asked? {event : Event} (h : event.asked? = none) :
    event.effect? = none := by
  cases event <;> simp_all [asked?, effect?]

/-- A call asks for its effect. -/
@[simp] theorem asksOf_callEvents (s : Stage) (effect : Effect) :
    asksOf (s.callEvents device effect) = [effect] := by
  have hstop : Event.stopRequested.asked? = none := rfl
  rw [Stage.callEvents]
  split <;> simp [asksOf, hstop]

theorem replies_append (asked : Nat) (effects more : List Effect) :
    replies device asked (effects ++ more) =
      replies device asked effects ++ replies device (asked + effects.length) more := by
  induction effects generalizing asked with
  | nil => rfl
  | cons effect rest ih =>
    rw [List.cons_append, replies, ih, replies, List.cons_append, List.length_cons]
    rw [Nat.add_assoc asked 1, Nat.add_comm 1]

/-- One more effect is answered after the others. -/
theorem replies_concat (asked : Nat) (effects : List Effect) (effect : Effect) :
    replies device asked (effects ++ [effect]) =
      replies device asked effects ++ [device (asked + effects.length + 1) effect] :=
  replies_append asked effects [effect]

/-- While no instruction begins, neither does the command that stops. -/
theorem stopBegun_append (hquiet : ∀ entry ∈ new, entry.2.begun? = none) :
    StopBegun (part ++ new) ↔ StopBegun part := by
  simp only [StopBegun, List.mem_append]
  constructor
  · rintro ⟨time, line, hold | hnew⟩
    · exact ⟨time, line, hold⟩
    · cases hquiet _ hnew
  · rintro ⟨time, line, hold⟩
    exact ⟨time, line, .inl hold⟩

/-- One more event begins the command that stops, or it had begun before. -/
theorem stopBegun_concat (event : Event) : StopBegun (part ++ [(time, event)]) ↔
    StopBegun part ∨ ∃ line, event = .executing line Builtin.stop.name := by
  simp only [StopBegun, List.mem_append, List.mem_singleton, Prod.mk.injEq]
  constructor
  · rintro ⟨time', line, hold | ⟨-, hnew⟩⟩
    · exact .inl ⟨time', line, hold⟩
    · exact .inr ⟨line, hnew.symm⟩
  · rintro (⟨time', line, hold⟩ | ⟨line, rfl⟩)
    · exact ⟨time', line, .inl hold⟩
    · exact ⟨time, line, .inr ⟨rfl, rfl⟩⟩

/-- The instruction in progress has begun. -/
theorem stopBegun_of_inProgress? (h : ∃ line, inProgress? part = some (line, Builtin.stop.name)) :
    StopBegun part := by
  obtain ⟨line, hlast⟩ := h
  obtain ⟨⟨time, event⟩, hmem, hbegun⟩ := List.mem_filterMap.mp (List.mem_of_getLast? hlast)
  cases event with
  | executing line' name =>
    cases hbegun
    exact ⟨time, line, hmem⟩
  | _ => cases hbegun

end Replies

/-- One more operation stops an active run, or one of those before has done so. -/
theorem Engine.stoppedDuring_concat {started : Engine} {ops : List Operation} {op : Operation} :
    started.StoppedDuring (ops ++ [op]) ↔ started.StoppedDuring ops ∨
      op = .stop ∧ ∃ part, RunSoFar started (started.performAll ops) part none := by
  constructor
  · rintro ⟨pre, post, part, hsplit, hpart⟩
    rcases split_concat hsplit with ⟨rfl, rfl, -⟩ | ⟨rest, -, rfl⟩
    · exact .inr ⟨rfl, part, hpart⟩
    · exact .inl ⟨pre, rest, part, rfl, hpart⟩
  · rintro (⟨pre, post, part, rfl, hpart⟩ | ⟨rfl, part, hpart⟩)
    · exact ⟨pre, post ++ [op], part, by simp, hpart⟩
    · exact ⟨ops, [], part, rfl, hpart⟩

/-! ### The account of a run -/

/-- Whether a run goes on at a point or has completed, with nothing about to stop it. -/
def Point.IsOpen : Point → Prop
  | .ended outcome => outcome = .completed
  | .inside _ p => p ≠ .stop .done
  | _ => True

namespace Course

variable (r : Course) (first : Nat) (earlier : List (Nat × Event)) (outside : Prop)

/-- The events of a run and the calls among them. -/
structure Counted (s : Stage) (part : List (Nat × Event)) : Prop where
  history : s.history.reverse = earlier ++ part
  calls : s.calls = first + (asksOf part).length

/-- The events of a run that has made no call in vain. -/
structure Granted (s : Stage) (part : List (Nat × Event)) : Prop
    extends Counted first earlier s part where
  performed : asksOf part = effectsOf part
  granted : ∀ reply ∈ replies r.env.device first (asksOf part), ¬reply.Refuses

/-- The events of a run whose last call was refused. -/
structure Refused (s : Stage) (part : List (Nat × Event)) : Prop
    extends Counted first earlier s part where
  performed : asksOf part = effectsOf part ∨ ∃ effect, asksOf part = effectsOf part ++ [effect]
  refused : ∃ reply ∈ replies r.env.device first (asksOf part), reply.Refuses

/-- What a run keeps account of while it goes on. Whether a stop was asked for from outside is
given. -/
structure Account (s : Stage) (part : List (Nat × Event)) : Prop
    extends Granted r first earlier s part where
  flag : s.cancelled = true ↔ outside ∨ StoppedInCall r.env.device first part
  unstopped : ¬StopBegun part

/-- Where a program has come to a halt in a run. -/
inductive Settled : Stage × Halt → Prop where
  | granted (s : Stage) (part : List (Nat × Event)) (halt : Halt)
      (h : r.Account first earlier outside s part)
      (hhalt : halt = .returned ∨ ∃ wake rest, halt = .asleep wake rest) : Settled (s, halt)
  /-- The device has refused a call. -/
  | refused (s : Stage) (part : List (Nat × Event)) (halt : Halt)
      (h : r.Refused first earlier s part)
      (hhalt : halt = .crashed ∨ ∃ cause, halt = .failed cause) : Settled (s, halt)

/-- A state of a run, with what the run keeps account of. -/
inductive Accounted : State → Prop where
  | goes (s : Stage) (point : Point) (part : List (Nat × Event))
      (h : r.Account first earlier outside s part) (hpoint : point.IsOpen) : Accounted ⟨s, point⟩
  /-- The command that stops is in progress. -/
  | stopping (s : Stage) (index line : Nat) (part : List (Nat × Event))
      (h : r.Granted first earlier s part)
      (hlast : inProgress? part = some (line, Builtin.stop.name)) :
      Accounted ⟨s, .inside index (.stop .done)⟩
  | stopped (s : Stage) (part : List (Nat × Event)) (h : r.Granted first earlier s part)
      (hasked : outside ∨ StoppedInCall r.env.device first part ∨
        ∃ line, inProgress? part = some (line, Builtin.stop.name)) : Accounted ⟨s, .ended .stopped⟩
  | refused (s : Stage) (part : List (Nat × Event)) (error : RunError)
      (h : r.Refused first earlier s part) : Accounted ⟨s, .ended (.failed error)⟩

variable {r first earlier outside} {s s' : Stage} {part : List (Nat × Event)}
  {state state' : State}

/-- One more event that is no call. -/
theorem Granted.record (h : r.Granted first earlier s part) (event : Event)
    (hasked : event.asked? = none) :
    r.Granted first earlier (s.record event) (part ++ [(s.now, event)]) := by
  have hsame : asksOf (part ++ [(s.now, event)]) = asksOf part := asksOf_concat_of_none hasked
  refine ⟨⟨Stage.added_record h.history event, ?_⟩, ?_, ?_⟩
  · rw [hsame]
    exact h.calls
  · rw [hsame, effectsOf_concat, Event.effect?_of_asked? hasked, h.performed]
    exact (List.append_nil _).symm
  · rw [hsame]
    exact h.granted

/-- One more event that is no call and does not begin the command that stops. -/
theorem Account.record (h : r.Account first earlier outside s part) (event : Event)
    (hasked : event.asked? = none)
    (hstop : ∀ line, event ≠ .executing line Builtin.stop.name) :
    r.Account first earlier outside (s.record event) (part ++ [(s.now, event)]) := by
  refine ⟨h.toGranted.record event hasked, ?_, ?_⟩
  · rw [StoppedInCall, asksOf_concat_of_none hasked]
    exact h.flag
  · rw [stopBegun_concat]
    rintro (hold | ⟨line, hnew⟩)
    · exact h.unstopped hold
    · exact hstop line hnew

/-- One more call, whatever comes of it. -/
theorem Counted.call (h : Counted first earlier s part) (device : Device) (effect : Effect) :
    Counted first earlier (s.call device effect) (part ++ s.callEvents device effect) := by
  constructor
  · rw [s.reverse_history_call, h.history, List.append_assoc]
  · rw [s.calls_call, h.calls, asksOf_append, asksOf_callEvents, List.length_append]
    rfl

/-- The replies to the calls of a run, after one more. -/
theorem Counted.replies_call (h : Counted first earlier s part) (device : Device)
    (effect : Effect) :
    replies device first (asksOf (part ++ s.callEvents device effect)) =
      replies device first (asksOf part) ++ [s.reply device effect] := by
  rw [asksOf_append, asksOf_callEvents, replies_concat, ← h.calls]
  rfl

/-- One more call that the device has answered as it should, perhaps asking for a stop. -/
theorem Account.call (h : r.Account first earlier outside s part) {effect : Effect}
    (hdone : (s.reply r.env.device effect).answer = .done) :
    r.Account first earlier outside (s.call r.env.device effect)
      (part ++ s.callEvents r.env.device effect) := by
  have hreplies := h.replies_call r.env.device effect
  refine ⟨⟨h.toCounted.call r.env.device effect, ?_, ?_⟩, ?_, ?_⟩
  · have heffects : effectsOf (s.callEvents r.env.device effect) = [effect] := by
      rw [effectsOf_callEvents, hdone]
      rfl
    rw [asksOf_append, asksOf_callEvents, h.performed, ← heffects]
    exact List.filterMap_append.symm
  · rw [hreplies, List.forall_mem_append, List.forall_mem_singleton]
    exact ⟨h.granted, fun hrefuses => hrefuses hdone⟩
  · rw [Stage.cancelled_call, Bool.or_eq_true, h.flag, StoppedInCall, StoppedInCall, hreplies]
    simp only [List.mem_append, List.mem_singleton, or_and_right, exists_or, exists_eq_left,
      or_assoc]
  · rw [stopBegun_append (s.begun?_callEvents _ _)]
    exact h.unstopped

/-- One more call that the device has refused. -/
theorem Granted.refuse (h : r.Granted first earlier s part) {effect : Effect}
    (hrefused : (s.reply r.env.device effect).Refuses) :
    r.Refused first earlier (s.call r.env.device effect)
      (part ++ s.callEvents r.env.device effect) := by
  refine ⟨h.toCounted.call r.env.device effect, ?_, s.reply r.env.device effect, ?_, hrefused⟩
  · have happend : effectsOf (part ++ s.callEvents r.env.device effect) =
        effectsOf part ++ effectsOf (s.callEvents r.env.device effect) := List.filterMap_append
    rw [asksOf_append, asksOf_callEvents, h.performed, happend, effectsOf_callEvents]
    -- A call that was refused may have performed its effect all the same.
    cases (s.reply r.env.device effect).answer.performed with
    | true => exact .inl rfl
    | false => exact .inr ⟨effect, by simp⟩
  · rw [h.replies_call]
    exact List.mem_append_right _ List.mem_cons_self

/-- What concerns neither the history, the calls nor the flag changes nothing. -/
theorem Account.of_eq (h : r.Account first earlier outside s part)
    (hhistory : s'.history = s.history) (hcalls : s'.calls = s.calls)
    (hcancelled : s'.cancelled = s.cancelled) : r.Account first earlier outside s' part :=
  ⟨⟨⟨hhistory ▸ h.history, hcalls ▸ h.calls⟩, h.performed, h.granted⟩, hcancelled ▸ h.flag,
    h.unstopped⟩

end Course

open Course (Settled)

/-- A gesture keeps the account of a run. -/
theorem Program.Gesture.run_account {r : Course} {first : Nat} {earlier part : List (Nat × Event)}
    {outside : Prop} {p : Program} (hp : Gesture p) {s : Stage}
    (h : r.Account first earlier outside s part) :
    Settled r first earlier outside (p.run r.env s) := by
  induction hp generalizing s part with
  | done => exact .granted s part _ h (.inl rfl)
  | perform effect next _ ih =>
    rw [Program.run]
    cases hanswer : (s.reply r.env.device effect).answer with
    | done => exact ih (h.call hanswer)
    | failed cause performed =>
      exact .refused _ _ _ (h.toGranted.refuse (by simp [Reply.Refuses, hanswer]))
        (.inr ⟨cause, rfl⟩)
    | crashed performed =>
      exact .refused _ _ _ (h.toGranted.refuse (by simp [Reply.Refuses, hanswer])) (.inl rfl)
  | pause span next hcut _ ih =>
    rw [Program.run]
    split
    · rename_i full _
      cases full with
      | true => exact ih h
      | false =>
        rw [hcut]
        exact .granted s part _ h (.inl rfl)
    · exact .granted s part _ h (.inr ⟨_, _, rfl⟩)
  | choose low high next _ ih => exact ih _ (h.of_eq rfl rfl rfl)

/-- Only the command that stops has its name. -/
theorem Command.eq_stop_of_name {c : Command} (h : c.IsBuiltin)
    (hname : c.name = Builtin.stop.name) : c = .stop := by
  cases c with
  | stop => rfl
  | custom name program => exact h.elim
  | _ => simp [name, Builtin.name] at hname

/-- No other built-in command has its program. -/
theorem Command.program_ne_stop {c : Command} (h : c.IsBuiltin) (hstop : c ≠ .stop) :
    c.program ≠ .stop .done := by
  intro hprogram
  by_cases hcall : ∃ target, c = .call target ∧ 0 < target
  · obtain ⟨target, rfl, hforward⟩ := hcall
    rw [program_of_forward hforward] at hprogram
    cases hprogram
  · have hgesture : Gesture c.program := by
      refine gesture_program h ?_ hstop
      intro target htarget
      exact Int.not_lt.mp fun hforward => hcall ⟨target, htarget, hforward⟩
    rw [hprogram] at hgesture
    cases hgesture

namespace Course

variable {r : Course} {first : Nat} {earlier : List (Nat × Event)} {outside : Prop}
  {s : Stage} {part : List (Nat × Event)} {state state' : State}

/-- An instruction that begins is accounted for: it is the one that stops, or the run goes on. -/
theorem Account.begin (h : r.Account first earlier outside s part) (index : Nat) {i : Instruction}
    (hi : i.command.IsBuiltin) : r.Accounted first earlier outside
      ⟨s.beginInstruction index i, .inside index i.command.program⟩ := by
  by_cases hstop : i.command = .stop
  · have hname : i.name = Builtin.stop.name := by
      rw [Instruction.name, hstop]
      rfl
    have hrecord := h.toGranted.record (.executing i.line i.name) rfl
    rw [hstop]
    exact .stopping _ index i.line _
      ⟨⟨hrecord.history, hrecord.calls⟩, hrecord.performed, hrecord.granted⟩
      (hname ▸ inProgress?_of_begun part s.now i.line i.name (by simp))
  · have hother (line : Nat) :
        Event.executing i.line i.name ≠ .executing line Builtin.stop.name := by
      intro hevent
      obtain ⟨-, hname⟩ := Event.executing.inj hevent
      exact hstop (Command.eq_stop_of_name hi hname)
    have hrecord := h.record (.executing i.line i.name) rfl hother
    exact .goes _ _ _ (hrecord.of_eq rfl rfl rfl) (Command.program_ne_stop hi hstop)

/-- A gesture in progress keeps the account of a run. -/
theorem Account.gesture (h : r.Account first earlier outside s part) {index : Nat} {p : Program}
    (hp : Gesture p) (hnone : s.transfer = none) (hwork : r.Work ⟨s, .inside index p⟩ state') :
    r.Accounted first earlier outside state' := by
  have hsettled := hp.run_account h
  have htransfer := (hp.run_fits r.env s).1
  cases hwork with
  | pause s s' index i p wake rest hi hrun =>
    rw [hrun] at hsettled
    cases hsettled with
    | granted _ part' _ h' => exact .goes s' _ part' h' trivial
    | refused _ _ _ _ hhalt => simp at hhalt
  | fail s s' index i p cause hi hrun | crash s s' index i p hi hrun =>
    rw [hrun] at hsettled
    cases hsettled with
    | granted _ _ _ _ hhalt => simp at hhalt
    | refused _ part' _ h' => exact .refused s' part' _ h'
  | jump s s' index i p target hi hrun htarget =>
    -- A gesture asks for no transfer.
    rw [hrun, hnone, htarget] at htransfer
    cases htransfer
  | stop s s' index i p hi hrun hstop =>
    rw [hrun, hnone, hstop] at htransfer
    cases htransfer
  | pass s s' index i p hi hrun | passLast s s' index i p hi hrun =>
    rw [hrun] at hsettled
    cases hsettled with
    | granted _ part' _ h' => exact .goes s' _ part' h' trivial
    | refused _ _ _ _ hhalt => simp at hhalt

/-- An instruction in progress, other than the one that stops, keeps the account of a run. -/
theorem Account.inside {n index : Nat} {p : Program} (h : r.Account first earlier outside s part)
    (hstop : p ≠ .stop .done) (hfits : r.Fits n ⟨s, .inside index p⟩)
    (hwork : r.Work ⟨s, .inside index p⟩ state') : r.Accounted first earlier outside state' := by
  obtain ⟨hnone, hgesture | ⟨line, rfl⟩ | rfl, -⟩ := hfits.point
  · exact h.gesture hgesture hnone hwork
  · -- A jump is noted in the history.
    cases hwork with
    | pause _ _ _ _ _ _ _ _ hrun | fail _ _ _ _ _ _ _ hrun | crash _ _ _ _ _ _ hrun =>
      cases hrun
    | stop _ _ _ _ _ _ hrun htransfer | pass _ _ _ _ _ _ hrun htransfer
    | passLast _ _ _ _ _ _ hrun htransfer =>
      cases hrun
      cases htransfer
    | jump s s' index i p target hi hrun =>
      cases hrun
      have hasked : r.Account first earlier outside { s with transfer := some (.line line) } part :=
        h.of_eq rfl rfl rfl
      exact .goes _ _ _ (hasked.record (.jumped i.line target) rfl (by simp)) trivial
  · exact absurd rfl hstop

/-- Every step of the worker keeps the account of a run. -/
theorem Accounted.work {n : Nat} (hscript : r.script.IsBuiltin) (hfits : r.Fits n state)
    (h : r.Accounted first earlier outside state) (hwork : r.Work state state') :
    r.Accounted first earlier outside state' := by
  cases h with
  | goes s point part h hpoint =>
    have hstep := hwork
    cases hwork with
    | skipStart | delayStart | wakeToStart | land | landBehind | wakeToNext | skipDelay | delay =>
      exact .goes s _ part h trivial
    | resume s index wake rest i hi =>
      -- The rest of the program is a gesture, whether or not the pause was cut short.
      obtain ⟨-, hcut, hfull, -⟩ := hfits.point
      refine .goes s _ part h ?_
      have hgesture : Gesture (rest (Sleep.isFull s.cancelled (r.env.tie s.now) wake s.now)) := by
        cases Sleep.isFull s.cancelled (r.env.tie s.now) wake s.now with
        | true => exact hfull
        | false => exact hcut ▸ .done
      intro hstop
      rw [hstop] at hgesture
      cases hgesture
    | halt s index hcancelled =>
      refine .stopped s part h.toGranted ?_
      exact (h.flag.mp hcancelled).imp_right .inl
    | finish s index => exact .goes s _ part h rfl
    | begin s index i hgoes hi => exact h.begin index (hscript i (List.mem_of_getElem? hi))
    | pause | fail | crash | jump | stop | pass | passLast => exact h.inside hpoint hfits hstep
  | stopping s index line part h hlast =>
    cases hwork with
    | pause _ _ _ _ _ _ _ _ hrun | fail _ _ _ _ _ _ _ hrun | crash _ _ _ _ _ _ hrun =>
      cases hrun
    | jump _ _ _ _ _ _ _ hrun htransfer | pass _ _ _ _ _ _ hrun htransfer
    | passLast _ _ _ _ _ _ hrun htransfer =>
      cases hrun
      cases htransfer
    | stop s s' index i p hi hrun =>
      cases hrun
      exact .stopped _ part ⟨⟨h.history, h.calls⟩, h.performed, h.granted⟩
        (.inr (.inr ⟨line, hlast⟩))
  | stopped | refused => cases hwork

/-- What happens at the same time while the worker rests keeps the account of a run. -/
theorem kept_accounted (hscript : r.script.IsBuiltin) (s : Stage) :
    r.Kept ⟨s, .resting .fresh⟩ (r.Accounted first earlier outside) where
  work := fun hreaches hwork h => h.work hscript (Reaches.fits hscript hreaches) hwork
  tick := by
    intro s phase time h
    cases h with
    | goes _ _ part h hpoint => exact .goes _ _ part (h.of_eq rfl rfl rfl) hpoint
  turnAway := by
    intro s phase event hevent h
    cases h with
    | goes _ _ part h hpoint =>
      refine .goes _ _ _ (h.record event ?_ ?_) hpoint
      · rcases hevent with rfl | rfl <;> rfl
      · rcases hevent with rfl | rfl <;> simp

/-- A stop from outside is accounted for. -/
theorem Accounted.cancel {phase : Phase}
    (h : r.Accounted first earlier outside ⟨s, .resting phase⟩) :
    r.Accounted first earlier True ⟨s.requestStop, .resting phase⟩ := by
  cases h with
  | goes _ _ part h hpoint =>
    obtain ⟨hgranted, -, hunstopped⟩ := h.record .stopRequested rfl (by simp)
    refine .goes _ _ _ ⟨⟨⟨hgranted.history, hgranted.calls⟩, hgranted.performed,
      hgranted.granted⟩, ?_, hunstopped⟩ hpoint
    simp [Stage.requestStop]

variable {started : Engine}

/-- A run that has ended is not seen to go on. -/
theorem Ended.not_runSoFar {outcome : Outcome} {e : Engine} (h : r.Ended started s outcome e)
    {part : List (Nat × Event)} : ¬RunSoFar started e part none := by
  rintro ⟨hquiet, -, hevents⟩
  obtain ⟨new, hnew, -⟩ := h.reaches.added
  obtain ⟨rest, hrest⟩ := h.events
  rw [hevents, hnew, List.append_assoc] at hrest
  have hreport : (s.now, Event.ended outcome) ∈ part := by
    rw [List.append_cancel_left hrest]
    exact List.mem_append_right new List.mem_cons_self
  have hquiet := hquiet _ hreport
  cases hquiet

/-- Whatever is done with an engine but for a stop, the run is accounted for. -/
theorem lasting_accounted (hscript : r.script.IsBuiltin) (started : Engine) :
    Engine.Lasting (· ≠ .stop) (r.Shows (r.Accounted first earlier outside) started) :=
  lasting_shows started (kept_accounted hscript _) fun h => absurd rfl h

/-- Whatever is done with an engine, the run is accounted for, with the stops that find it
active. -/
theorem shows_accounted (hscript : r.script.IsBuiltin) (hactive : r.Active started .fresh started)
    (hgoes : started.stage.cancelled = false) (ops : List Operation) :
    r.Shows (r.Accounted started.stage.calls started.events (started.StoppedDuring ops)) started
      (started.performAll ops) := by
  induction ops using List.reverseRecOn with
  | nil =>
    refine .inl ⟨_, hactive, .goes _ _ [] ⟨⟨⟨?_, rfl⟩, rfl, ?_⟩, ?_, ?_⟩ trivial⟩
    · exact (List.append_nil _).symm
    · simp [asksOf, replies]
    · simp [Engine.performAll, hgoes, StoppedInCall, asksOf, replies, Engine.StoppedDuring]
    · simp [StopBegun]
  | append_singleton ops op ih =>
    have hlast : started.performAll (ops ++ [op]) = (started.performAll ops).perform op :=
      started.performAll_append ops [op]
    rw [hlast]
    by_cases hop : op = .stop
    · subst hop
      -- A stop counts just if it finds the run active.
      rcases ih with ⟨phase, h, hstate⟩ | ⟨s, outcome, h, hstate⟩
      · obtain ⟨part, hseen⟩ := h.seen
        have hstopped : started.StoppedDuring (ops ++ [.stop]) = True :=
          eq_true (Engine.stoppedDuring_concat.mpr (.inr ⟨rfl, part, hseen.runSoFar⟩))
        rw [hstopped, Engine.perform, Engine.stop_of_running h.running]
        exact .inl ⟨phase, h.step (.cancel _ phase), hstate.cancel⟩
      · have hsame : started.StoppedDuring (ops ++ [.stop]) = started.StoppedDuring ops := by
          refine propext (Engine.stoppedDuring_concat.trans (or_iff_left ?_))
          rintro ⟨-, part, hpart⟩
          exact h.not_runSoFar hpart
        rw [hsame]
        exact .inr ⟨s, outcome, h.stop, hstate⟩
    · have hsame : started.StoppedDuring (ops ++ [op]) = started.StoppedDuring ops :=
        propext (Engine.stoppedDuring_concat.trans (or_iff_left fun h => hop h.1))
      rw [hsame]
      exact (lasting_accounted hscript started).perform hop ih

/-! ### The verdict -/

/-- The calls that a run is accounted to have made, and the verdict on its outcome if it has
ended. -/
theorem Accounted.verdict {n : Nat} (h : r.Accounted first earlier outside state)
    (hfits : r.Fits n state) (hplaced : r.script.Placed part state.point)
    (hpart : state.stage.history.reverse = earlier ++ part) :
    state.stage.calls = first + (asksOf part).length ∧
      (asksOf part = effectsOf part ∨ ∃ effect, asksOf part = effectsOf part ++ [effect]) ∧
      ∀ time outcome, state.ending? = some (time, outcome) →
        Verdict r.env.device r.script first outside part outcome := by
  have hpast : state.point = .ended .completed →
      ∃ index, r.script.control? part = some index ∧ r.script.length ≤ index := by
    intro hpoint
    rw [hpoint] at hplaced
    exact hplaced
  have hsame {s : Stage} {part' : List (Nat × Event)}
      (hstage : s.history.reverse = state.stage.history.reverse)
      (hpart' : s.history.reverse = earlier ++ part') : part' = part :=
    List.append_cancel_left (hpart'.symm.trans (hstage.trans hpart))
  cases h with
  | goes s point part' h hpoint =>
    obtain rfl := hsame rfl h.history
    refine ⟨h.calls, .inl h.performed, ?_⟩
    intro time outcome hending
    obtain ⟨rfl, -⟩ := State.ending?_eq_some_iff.mp hending
    obtain rfl : outcome = .completed := hpoint
    -- A run completes only if it is not to stop.
    have hgoes : s.cancelled = false := hfits.point
    have hnot : ¬(outside ∨ StoppedInCall r.env.device first part' ∨ StopBegun part') := by
      rw [← or_assoc, ← h.flag, hgoes]
      rintro (hflag | hbegun)
      · cases hflag
      · exact h.unstopped hbegun
    refine ⟨iff_of_false (by simp) ?_, iff_of_false (by simp) fun h => hnot h.2,
      iff_of_true rfl ⟨h.granted, hnot⟩, fun _ => hpast rfl⟩
    rintro ⟨reply, hreply, hrefuses⟩
    exact h.granted reply hreply hrefuses
  | stopping s index line part' h hlast =>
    obtain rfl := hsame rfl h.history
    refine ⟨h.calls, .inl h.performed, ?_⟩
    intro time outcome hending
    cases hending
  | stopped s part' h hasked =>
    obtain rfl := hsame rfl h.history
    refine ⟨h.calls, .inl h.performed, ?_⟩
    intro time outcome hending
    cases hending
    have hasked := hasked.imp_right (Or.imp_right stopBegun_of_inProgress?)
    refine ⟨iff_of_false (by simp) ?_, iff_of_true rfl ⟨h.granted, hasked⟩,
      iff_of_false (by simp) fun h => h.2 hasked, by simp⟩
    rintro ⟨reply, hreply, hrefuses⟩
    exact h.granted reply hreply hrefuses
  | refused s part' error h =>
    obtain rfl := hsame rfl h.history
    refine ⟨h.calls, h.performed, ?_⟩
    intro time outcome hending
    cases hending
    obtain ⟨reply, hreply, hrefuses⟩ := h.refused
    exact ⟨iff_of_true ⟨error, rfl⟩ h.refused,
      iff_of_false (by simp) fun h => h.1 _ hreply hrefuses,
      iff_of_false (by simp) fun h => h.1 _ hreply hrefuses, by simp⟩

end Course

namespace Engine

/-- Whatever is done after an idle engine has started a script, the run is accounted for. -/
theorem shows_accounted {script : Script} (hscript : script.IsBuiltin) {e : Engine}
    (hidle : e.isRunning = false) (lineDelay : Span) (ops : List Operation) :
    let started := (e.start script lineDelay).1
    let r := e.courseOf script lineDelay
    r.Shows (r.Accounted e.stage.calls started.events (started.StoppedDuring ops)) started
      (started.performAll ops) := by
  rw [start_of_idle hidle]
  exact Course.shows_accounted hscript (e.active_launch script lineDelay) rfl ops

/-- What the outcome of a run says, and stops do not leak from one run into another. A script of
built-in commands was started on an idle engine, whatever was done with the engine before. Then
whatever is done with it, the calls of the device that the run has made are among its events, and
each of them was performed but for the last one, if that was refused. If the run has ended, it
failed just if the device refused a call of it. It was stopped just if no call was refused and,
while this run was active, a stop was asked for by an operation or in a call of the device, or the
command that stops began. It completed just if nothing of this happened, and then control has passed
the last instruction. -/
theorem outcome_sound {catalog : Catalog} {lines : List String} {script : Script}
    (hcompile : catalog.compile lines = .ok script) (hscript : script.IsBuiltin) {e : Engine}
    (hidle : e.isRunning = false) (lineDelay : Span) (ops : List Operation) :
    let started := (e.start script lineDelay).1
    let after := started.performAll ops
    ∃ part ending, RunSoFar started after part ending ∧
      (after.runs = started.runs → after.stage.calls = e.stage.calls + (asksOf part).length) ∧
      (asksOf part = effectsOf part ∨ ∃ effect, asksOf part = effectsOf part ++ [effect]) ∧
      ∀ time outcome, ending = some (time, outcome) →
        Verdict e.surroundings.device script e.stage.calls (started.StoppedDuring ops) part
          outcome := by
  intro started after
  obtain ⟨state, part, hseen, haccounted⟩ := (shows_accounted hscript hidle lineDelay ops).seen
  have hfits := Course.Reaches.fits hscript hseen.reaches
  obtain ⟨-, hplaced⟩ := hseen.controlled hscript (Catalog.sorted_of_compile hcompile)
  obtain ⟨hcalls, hasked, hverdict⟩ := haccounted.verdict hfits hplaced hseen.history
  exact ⟨part, state.ending?, hseen.runSoFar,
    fun hruns => (hseen.calls_eq hruns).trans hcalls, hasked, hverdict⟩

/-- A stop while the engine is idle, one in an earlier run, which it ends, and one after this run
has ended: the run completes all the same. -/
theorem outcome_sound_behind_stopped_run : ∃ script,
    Catalog.builtin.compile ["Wait 5", "MouseClick"] = .ok script ∧
    (let e := (Engine.new .zero Surroundings.plain).performAll
       [.stop, .start script .zero, .yield 1, .stop, .yield 1, .stop]
     let started := (e.start script .zero).1
     let ops := [.advance ⟨10000000⟩ 10, .stop]
     let after := started.performAll ops
     (∃ part ending, RunSoFar started after part ending ∧
        (after.runs = started.runs → after.stage.calls = e.stage.calls + (asksOf part).length) ∧
        (asksOf part = effectsOf part ∨ ∃ effect, asksOf part = effectsOf part ++ [effect]) ∧
        ∀ time outcome, ending = some (time, outcome) →
          Verdict e.surroundings.device script e.stage.calls (started.StoppedDuring ops) part
            outcome) ∧
      e.events = [(0, .started 2 0), (0, .executing 1 "Wait"), (0, .stopRequested),
        (0, .ended .stopped)] ∧
      after.events = e.events ++ [(0, .started 2 0), (0, .executing 1 "Wait"),
        (5, .executing 2 "MouseClick"), (5, .performed (.button .left .down)),
        (5, .performed (.button .left .up)), (5, .ended .completed)]) := by
  have hcompile : Catalog.builtin.compile ["Wait 5", "MouseClick"] =
      .ok ⟨[⟨1, ["5"], .wait ⟨5000000⟩ ⟨5000000⟩⟩, ⟨2, [], .mouseClick .left⟩], 2⟩ := by
    with_unfolding_all rfl
  have hcompiled : Script.IsCompiled _ := ⟨_, hcompile⟩
  refine ⟨_, hcompile, ?_, ?_, ?_⟩
  · exact outcome_sound hcompile hcompiled.isBuiltin (by decide +kernel) _ _
  · decide +kernel
  · decide +kernel

end Engine

end InputScript
