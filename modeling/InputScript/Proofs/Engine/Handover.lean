import InputScript.Proofs.Engine.Verdict

/-!
# `InputScript.Proofs.Engine.Handover`: what follows a jump

A jump takes the run to the first instruction at or behind its target line, and one whose target
is no line to the next instruction (`Script.targetOf`). That instruction is the next one to begin,
however long the line delay before it lasts and whatever is done meanwhile. Where there is none
the run completes. Only a stop that was asked for keeps this from happening (`Led`).

A worker that gave way after a jump, or that sleeps between two lines, needs a few rounds to begin
the next instruction or to end the run, and no device can keep it from that.

* `Engine.moves_on`: given time, such a worker moves on.
* `Course.Seen.led`: where a run is seen, each of its jumps has led on, or it is the last and the
  worker is between two lines.
* `Engine.jump_leadsOn`: given time, each of them has led on.
-/

set_option autoImplicit false

namespace InputScript

/-! ### Where a jump leads -/

/-- The instruction to which a jump in a line leads: the first one at or behind the target line,
or the next one if the target is no line. -/
def Script.targetOf (script : Script) (line : Nat) (target : Int) : Option Instruction :=
  script.instructions.find? fun i =>
    if 0 < target then decide (target ≤ i.line) else decide (line < i.line)

/-- What has followed an instruction that leads to another one or to the end of the run, given
what the run has added and how it has ended since. -/
inductive Led (next : Option Instruction) (asked : Prop) (rest : List (Nat × Event))
    (ending : Option (Nat × Outcome)) : Prop where
  /-- The instruction to which it leads was the next to begin. -/
  | begins (i : Instruction) (time : Nat) (quiet later : List (Nat × Event))
      (hnext : next = some i) (hrest : rest = quiet ++ (time, .executing i.line i.name) :: later)
      (hquiet : ∀ entry ∈ quiet, entry.2.begun? = none)
  /-- There is no such instruction, and the run has completed. -/
  | completes (time : Nat) (hnext : next = none) (hending : ending = some (time, .completed))
      (hquiet : ∀ entry ∈ rest, entry.2.begun? = none)
  /-- A stop was asked for. -/
  | stops (time : Nat) (hasked : asked) (hending : ending = some (time, .stopped))
      (hquiet : ∀ entry ∈ rest, entry.2.begun? = none)

namespace Script

variable {script : Script} {index : Nat} {i : Instruction} {part : List (Nat × Event)}

/-- Behind the last line there is nothing to go on with. -/
theorem targetOf_eq_none {line bound : Nat} {target : Int}
    (hbound : ∀ i ∈ script.instructions, i.line ≤ bound) (h : (bound : Int) < target) :
    script.targetOf line target = none := by
  refine List.find?_eq_none.mpr ?_
  intro i hi
  have hle := hbound i hi
  rw [if_pos (by omega), decide_eq_true_eq]
  omega

/-- While a jump is in progress, the instruction that is next is the one to which it leads. -/
theorem next?_of_call (hsorted : script.instructions.Pairwise fun a b => a.line < b.line)
    (hi : script.instructions[index]? = some i) {target : Int} (hcall : i.command = .call target)
    (hlast : inProgress? part = some (i.line, i.name)) :
    script.next? part = script.targetOf i.line target := by
  rw [next?, control?_of_inProgress? hsorted hi hlast, targetOf]
  by_cases hforward : 0 < target
  · rw [successor?_jump hi hcall hforward, Option.bind_some, getElem?_indexForLine]
    simp only [if_pos hforward]
    congr 1
    funext j
    rw [decide_eq_decide]
    omega
  · have hpass : i.command.HandsOver := by
      refine ⟨by simp [hcall], ?_⟩
      intro other hother
      cases hcall.symm.trans hother
      exact Int.not_lt.mp hforward
    rw [successor?_pass hi hpass, Option.bind_some, ← indexForLine_line_succ hsorted hi,
      getElem?_indexForLine]
    simp only [if_neg hforward]
    rfl

end Script

/-! ### A worker between two lines -/

/-- Whether a worker stands between two instructions of its script. -/
def Phase.IsBetween : Phase → Prop
  | .afterJump _ => True
  | .betweenLines .. => True
  | _ => False

namespace Worker

variable {env : Surroundings} {s stage : Stage} {phase : Phase}

/-- A worker that is suspended has begun the instruction at which it was. -/
theorem begins_of_runFrom {delay : Span} {index : Nat} {is : List Instruction}
    (h : runFrom env delay index is s = (stage, .suspended phase)) :
    ∃ (i : Instruction) (new : List (Nat × Event)),
      stage.history.reverse = s.history.reverse ++ (s.now, .executing i.line i.name) :: new := by
  cases is with
  | nil => simp [runFrom] at h
  | cons i rest =>
    rw [runFrom] at h
    split at h
    · cases h
    · have hrun := i.command.program.run_steps env (s.beginInstruction index i)
      have hsettle :=
        settle_steps env (runFrom_steps env delay (index + 1) rest) env.timer delay index i
        rest.isEmpty (i.command.program.run env (s.beginInstruction index i)).1
        (i.command.program.run env (s.beginInstruction index i)).2
      obtain ⟨new, hnew⟩ := Stage.Steps.added (hrun.trans hsettle)
      have hhistory : stage.history = new ++ (s.beginInstruction index i).history := by
        rw [← hnew.history]
        exact (congrArg (·.1.history) h).symm
      refine ⟨i, new.reverse, ?_⟩
      rw [hhistory, List.reverse_append]
      show ((s.now, Event.executing i.line i.name) :: s.history).reverse ++ new.reverse = _
      rw [List.reverse_cons, List.append_assoc]
      rfl

/-- A worker between two lines that is suspended has begun the next instruction, or it sleeps
before that one. -/
theorem poll_between {w : Worker} {startDelay : Span} (hphase : w.phase.IsBetween)
    (h : w.poll env startDelay s = (stage, .suspended phase)) :
    (∃ (i : Instruction) (new : List (Nat × Event)),
      stage.history.reverse = s.history.reverse ++ (s.now, .executing i.line i.name) :: new) ∨
    stage = s ∧ (∃ line, w.phase = .afterJump line) ∧
      ∃ wake next, phase = .betweenLines wake next := by
  rw [poll] at h
  cases hw : w.phase with
  | fresh | beforeStart | inCommand =>
    rw [hw] at hphase
    exact hphase.elim
  | afterJump line =>
    rw [hw] at h
    dsimp only at h
    split at h
    · rw [delayLine] at h
      split at h
      · exact .inl (begins_of_runFrom h)
      · cases h
      · rename_i wake _
        cases h
        exact .inr ⟨rfl, ⟨line, rfl⟩, wake, _, rfl⟩
    · exact .inl (begins_of_runFrom h)
  | betweenLines wake next =>
    rw [hw] at h
    dsimp only at h
    split at h
    · cases h
    · exact .inl (begins_of_runFrom h)

end Worker

namespace Engine

/-- Since an engine was in a state, an instruction has begun or a run has ended. -/
def MovesTo (e e' : Engine) : Prop :=
  ∃ added, e'.events = e.events ++ added ∧
    ∃ entry ∈ added, entry.2.begun? ≠ none ∨ entry.2.isReport = true

variable {e : Engine} {w : Worker}

/-- A poll moves on from between two lines, or its worker sleeps before the next one. -/
theorem poll_between (hw : e.worker = some w) (hphase : w.phase.IsBetween)
    (hready : e.isReady = true) : e.MovesTo e.poll ∨
      (∃ line, w.phase = .afterJump line) ∧ e.poll.events = e.events ∧
        e.poll.running = e.running ∧
        ∃ w', e.poll.worker = some w' ∧ ∃ wake next, w'.phase = .betweenLines wake next := by
  obtain ⟨w', stage, progress, new, hs, hpoll⟩ := exists_stretched hready
  obtain rfl : w = w' := Option.some.inj (hw.symm.trans hs.worker)
  rw [hpoll]
  cases progress with
  | suspended phase =>
    rcases Worker.poll_between hphase hs.poll with ⟨i, more, hbegun⟩ | ⟨rfl, hjump, hsleeps⟩
    · exact .inl ⟨_, hbegun, _, List.mem_cons_self, .inl (by simp [Event.begun?])⟩
    · exact .inr ⟨hjump, rfl, rfl, _, rfl, hsleeps⟩
  | ended outcome =>
    refine .inl ⟨_, events_close_of_added hs.added outcome outcome, (e.stage.now, .ended outcome),
      ?_, .inr rfl⟩
    exact List.mem_append_right _ List.mem_cons_self
  | crashed =>
    refine .inl ⟨_, events_close_of_added hs.added .crashed _, (e.stage.now, .ended .crashed),
      ?_, .inr rfl⟩
    exact List.mem_append_right _ List.mem_cons_self

/-- A worker that sleeps before a line wakes up and moves on. -/
theorem moves_on_of_sleep (hrunning : e.running = true) (hw : e.worker = some w) {wake next : Nat}
    (hphase : w.phase = .betweenLines wake next) : ∃ rounds, e.MovesTo (e.finishRun rounds) := by
  have hbetween : w.phase.IsBetween := by
    rw [hphase]
    trivial
  have hpoll {e : Engine} (hw : e.worker = some w) (hready : e.isReady = true) :
      e.MovesTo e.poll := by
    rcases poll_between hw hbetween hready with hmoves | ⟨⟨line, hjump⟩, -⟩
    · exact hmoves
    · rw [hphase] at hjump
      cases hjump
  by_cases hready : e.isReady = true
  · refine ⟨1, ?_⟩
    rw [finishRun_of_ready hrunning hready]
    exact hpoll hw hready
  · have hwake : e.wake? = some wake := by rw [wake?, hw, Option.bind_some, hphase]; rfl
    have hready' : (e.setClock wake).isReady = true := by
      simp [isReady, setClock, hw, hphase, Phase.isReady, Phase.wake?]
    refine ⟨2, ?_⟩
    rw [finishRun_of_waits hrunning (by simpa using hready) hwake,
      finishRun_of_ready (show (e.setClock wake).running = true from hrunning) hready']
    exact hpoll (e := e.setClock wake) hw hready'

/-- Given time, a worker that stands between two lines moves on. -/
theorem moves_on (hrunning : e.running = true) (hw : e.worker = some w)
    (hphase : w.phase.IsBetween) : ∃ rounds, e.MovesTo (e.finishRun rounds) := by
  cases hwphase : w.phase with
  | fresh | beforeStart | inCommand =>
    rw [hwphase] at hphase
    exact hphase.elim
  | betweenLines wake next => exact moves_on_of_sleep hrunning hw hwphase
  | afterJump line =>
    have hready : e.isReady = true := by
      simp [isReady, hw, hwphase, Phase.isReady, Phase.wake?]
    rcases poll_between hw hphase hready with hmoves | ⟨-, hsame, hrunning', w', hw', wake, next, h⟩
    · refine ⟨1, ?_⟩
      rw [finishRun_of_ready hrunning hready]
      exact hmoves
    · -- The line delay comes first.
      obtain ⟨rounds, added, hadded, hmoved⟩ :=
        moves_on_of_sleep (hrunning'.trans hrunning) hw' h
      refine ⟨rounds + 1, added, ?_, hmoved⟩
      rw [finishRun_of_ready hrunning hready, hadded, hsame]

end Engine

/-! ### A run with jumps -/

/-- Events among which no instruction begins, or the first one that begins one. -/
theorem quiet_or_begins (events : List (Nat × Event)) :
    (∀ entry ∈ events, entry.2.begun? = none) ∨ ∃ quiet time line name later,
      events = quiet ++ (time, .executing line name) :: later ∧
        ∀ entry ∈ quiet, entry.2.begun? = none := by
  induction events with
  | nil => exact .inl (by simp)
  | cons entry rest ih =>
    obtain ⟨time, event⟩ := entry
    cases hbegun : event.begun? with
    | some begun =>
      cases event with
      | executing line name => exact .inr ⟨[], time, line, name, rest, rfl, by simp⟩
      | _ => cases hbegun
    | none =>
      rcases ih with hquiet | ⟨quiet, time', line, name, later, rfl, hquiet⟩
      · exact .inl (List.forall_mem_cons.mpr ⟨hbegun, hquiet⟩)
      · exact .inr ⟨(time, event) :: quiet, time', line, name, later, rfl,
          List.forall_mem_cons.mpr ⟨hbegun, hquiet⟩⟩

/-- A run that goes on only adds to its events, also where it has ended since. -/
theorem RunSoFar.extends {started e e' : Engine} {part part' added : List (Nat × Event)}
    {ending : Option (Nat × Outcome)} (h : RunSoFar started e part none)
    (h' : RunSoFar started e' part' ending) (hadded : e'.events = e.events ++ added) :
    ∃ more, part' = part ++ more ∧ (ending = none → more = added) := by
  obtain ⟨hquiet, -, hevents⟩ := h
  obtain ⟨hquiet', hevents'⟩ := h'
  cases ending with
  | none =>
    refine ⟨added, ?_, fun _ => rfl⟩
    rw [hevents, hevents'.2, List.append_assoc] at hadded
    exact List.append_cancel_left hadded
  | some ending =>
    obtain ⟨rest, hrest⟩ := hevents'
    rw [hevents, hrest, List.append_assoc] at hadded
    rcases List.append_eq_append_iff.mp (List.append_cancel_left hadded) with
      ⟨behind, hpart, hbehind⟩ | ⟨more, hpart', -⟩
    · cases behind with
      | nil => exact ⟨[], by rw [hpart, List.append_nil, List.append_nil], by simp⟩
      | cons entry behind =>
        -- The report of the end is not among the events of a run that goes on.
        obtain ⟨rfl, -⟩ := List.cons.inj hbehind
        have hreport := hquiet _ (hpart ▸ List.mem_append_right part' List.mem_cons_self)
        cases hreport
    · exact ⟨more, hpart', by simp⟩

/-- The instruction that begins next is the one to which a jump leads. -/
theorem Script.InOrder.led {script : Script} {index : Nat} {i : Instruction}
    {earlier quiet later : List (Nat × Event)} {line time time' : Nat} {name : String}
    (hsorted : script.instructions.Pairwise fun a b => a.line < b.line)
    (hi : script.instructions[index]? = some i) {target : Int} (hcall : i.command = .call target)
    (horder : script.InOrder (earlier ++ (time, .executing i.line i.name) ::
      (quiet ++ (time', .executing line name) :: later)))
    (hquiet : ∀ entry ∈ quiet, entry.2.begun? = none) :
    ∃ j, script.targetOf i.line target = some j ∧ j.line = line ∧ j.name = name := by
  obtain ⟨j, hnext, hline, hname⟩ := horder
    (earlier ++ (time, .executing i.line i.name) :: quiet) time' line name later (by simp)
  refine ⟨j, ?_, hline, hname⟩
  rw [← hnext]
  symm
  exact Script.next?_of_call hsorted hi hcall (inProgress?_of_begun earlier time _ _ hquiet)

namespace Course

variable {r : Course} {first : Nat} {outside : Prop} {started e : Engine} {state : State}
  {part earlier rest : List (Nat × Event)}

/-- What has come of the last instruction where it is a jump. -/
theorem Seen.led_of_last (hscript : r.script.IsBuiltin)
    (hsorted : r.script.instructions.Pairwise fun a b => a.line < b.line)
    (hseen : r.Seen started e state part)
    (haccounted : r.Accounted first started.events outside state) {index : Nat} {i : Instruction}
    (hi : r.script.instructions[index]? = some i) {target : Int} (hcall : i.command = .call target)
    (hlast : inProgress? part = some (i.line, i.name))
    (hquiet : ∀ entry ∈ rest, entry.2.begun? = none) :
    Led (r.script.targetOf i.line target)
      (outside ∨ StoppedInCall r.env.device first part) rest state.ending? ∨
    ∃ phase, state.point = .resting phase ∧ phase.IsBetween := by
  obtain ⟨-, hplaced⟩ := hseen.controlled hscript hsorted
  -- The instruction in progress is a jump, and no plain one.
  have hnot {index' : Nat} {i' : Instruction} (hprogress : r.script.InProgress part index' i') :
      ¬i'.command.IsPlain := by
    have hline : i'.line = i.line :=
      congrArg Prod.fst (Option.some.inj (hprogress.last.symm.trans hlast))
    obtain ⟨-, rfl⟩ := Script.eq_of_line hsorted hi hprogress.here hline
    exact fun hplain => hplain.2 target hcall
  have hvisible := hseen.visible
  obtain ⟨s, point⟩ := state
  match point, hplaced with
  | .resting .fresh, hnone | .resting (.beforeStart _), hnone =>
    simp [hlast, Script.Placed] at hnone
  | .resting (.inCommand _ _ _), ⟨i', hprogress, hplain, _⟩ => exact absurd hplain (hnot hprogress)
  | .resting (.afterJump line), _ => exact .inr ⟨_, rfl, trivial⟩
  | .resting (.betweenLines wake next), _ => exact .inr ⟨_, rfl, trivial⟩
  | .delaying _, _ | .before _, _ | .inside _ _, _ => exact hvisible.elim
  | .ended .completed, ⟨behind, hcontrol, hend⟩ =>
    refine .inl (.completes s.now ?_ rfl hquiet)
    rw [← Script.next?_of_call hsorted hi hcall hlast, Script.next?, hcontrol]
    exact List.getElem?_eq_none hend
  | .ended .stopped, _ =>
    refine .inl (.stops s.now ?_ rfl hquiet)
    cases haccounted with
    | goes _ _ _ _ hpoint => cases hpoint
    | stopped _ part' h hasked =>
      obtain rfl : part = part' := List.append_cancel_left (hseen.history.symm.trans h.history)
      rcases hasked with houtside | hreply | ⟨line, hstop⟩
      · exact .inl houtside
      · exact .inr hreply
      · -- A jump is not the command that stops.
        rw [hlast] at hstop
        have hname : i.name = Builtin.stop.name := congrArg Prod.snd (Option.some.inj hstop)
        rw [Instruction.name, hcall] at hname
        have hsame : Builtin.call = .stop := Builtin.name_injective hname
        cases hsame
  | .ended (.failed _), ⟨index', i', hprogress, hplain⟩ => exact absurd hplain (hnot hprogress)

/-- Where a run is seen, a jump of it has led on, or it is the last instruction and the worker is
between two lines. -/
theorem Seen.led (hscript : r.script.IsBuiltin)
    (hsorted : r.script.instructions.Pairwise fun a b => a.line < b.line)
    (hseen : r.Seen started e state part)
    (haccounted : r.Accounted first started.events outside state) {index time : Nat}
    {i : Instruction} (hi : r.script.instructions[index]? = some i) {target : Int}
    (hcall : i.command = .call target)
    (hpart : part = earlier ++ (time, .executing i.line i.name) :: rest) :
    Led (r.script.targetOf i.line target)
      (outside ∨ StoppedInCall r.env.device first part) rest state.ending? ∨
    (∀ entry ∈ rest, entry.2.begun? = none) ∧
      ∃ phase, state.point = .resting phase ∧ phase.IsBetween := by
  rcases quiet_or_begins rest with hquiet | ⟨quiet, time', line, name, later, rfl, hquiet⟩
  · have hlast : inProgress? part = some (i.line, i.name) :=
      hpart ▸ inProgress?_of_begun earlier time _ _ hquiet
    rcases hseen.led_of_last hscript hsorted haccounted hi hcall hlast hquiet with hled | hbetween
    · exact .inl hled
    · exact .inr ⟨hquiet, hbetween⟩
  · obtain ⟨horder, -⟩ := hseen.controlled hscript hsorted
    rw [hpart] at horder
    obtain ⟨j, hnext, rfl, rfl⟩ := horder.led hsorted hi hcall hquiet
    exact .inl (.begins j time' quiet later hnext rfl hquiet)

end Course

namespace Course

/-- What follows an instruction in a run is good in the end, if it is good wherever the run is seen
but for where the worker waits, and if from there it moves on. -/
theorem good_in_the_end {r : Course} {started e : Engine} {P : State → Prop} {i : Instruction}
    (Waits : State → Prop)
    (Good : List (Nat × Event) → List (Nat × Event) → Option (Nat × Outcome) → Prop)
    (hshows : ∀ rounds, r.Shows P started (e.finishRun rounds))
    (hgood : ∀ {e' : Engine} {state : State} {part : List (Nat × Event)},
      r.Seen started e' state part → P state → ∀ {earlier rest : List (Nat × Event)} {time : Nat},
        part = earlier ++ (time, .executing i.line i.name) :: rest →
          Good part rest state.ending? ∨
            (∀ entry ∈ rest, entry.2.begun? = none) ∧ state.ending? = none ∧ Waits state)
    (hmoves : ∀ phase, r.Active started phase e → Waits ⟨e.stage, .resting phase⟩ →
      ∃ rounds, e.MovesTo (e.finishRun rounds)) :
    ∃ part ending rounds more ending', RunSoFar started e part ending ∧
      RunSoFar started (e.finishRun rounds) (part ++ more) ending' ∧
      ∀ earlier time rest, part = earlier ++ (time, .executing i.line i.name) :: rest →
        Good (part ++ more) (rest ++ more) ending' := by
  -- Where nothing need be waited for, the run is good as it is.
  have hnow {state : State} {part : List (Nat × Event)} (hseen : r.Seen started e state part)
      (hstate : P state) (hwaits : state.ending? = none → ¬Waits state) :
      ∃ part ending rounds more ending', RunSoFar started e part ending ∧
        RunSoFar started (e.finishRun rounds) (part ++ more) ending' ∧
        ∀ earlier time rest, part = earlier ++ (time, .executing i.line i.name) :: rest →
          Good (part ++ more) (rest ++ more) ending' := by
    refine ⟨part, state.ending?, 0, [], state.ending?, hseen.runSoFar, ?_, ?_⟩
    · rw [List.append_nil]
      exact hseen.runSoFar
    · intro earlier time rest hpart
      rw [List.append_nil, List.append_nil]
      rcases hgood hseen hstate hpart with hdone | ⟨-, hgoes, h⟩
      · exact hdone
      · exact absurd h (hwaits hgoes)
  rcases hshows 0 with ⟨phase, hactive, hstate⟩ | ⟨s, outcome, hended, hstate⟩
  · obtain ⟨part, hseen⟩ := hactive.seen
    by_cases hwaits : Waits ⟨e.stage, .resting phase⟩
    · obtain ⟨rounds, added, hadded, entry, hentry, hmoved⟩ := hmoves phase hactive hwaits
      obtain ⟨state, part', hseen', hstate'⟩ := (hshows rounds).seen
      obtain ⟨more, rfl, hmore⟩ := hseen.runSoFar.extends hseen'.runSoFar hadded
      refine ⟨part, none, rounds, more, state.ending?, hseen.runSoFar, hseen'.runSoFar, ?_⟩
      intro earlier time rest hpart
      have hsplit :
          part ++ more = earlier ++ (time, .executing i.line i.name) :: (rest ++ more) := by
        rw [hpart, List.append_assoc]
        rfl
      rcases hgood hseen' hstate' hsplit with hdone | ⟨hquiet, hending, -⟩
      · exact hdone
      · -- The worker has moved on, so it is no longer where it was.
        rw [← hmore hending] at hentry
        rcases hmoved with hbegun | hreport
        · exact absurd (hquiet _ (List.mem_append_right rest hentry)) hbegun
        · have hno := hseen'.runSoFar.quiet _ (List.mem_append_right part hentry)
          rw [hreport] at hno
          cases hno
    · exact hnow hseen hstate fun _ => hwaits
  · obtain ⟨part, hseen⟩ := hended.seen
    exact hnow hseen hstate fun hgoes => by cases hgoes

end Course

namespace Engine

/-- Whether an instruction of a script leads on to another one, or to the end where `next` is none.
The script was started on an engine. Whatever was done with it since, wherever the instruction has
begun, given time that other one begins next or the run completes, unless a stop was asked for by
an operation or by the device. -/
def LeadsOn (e : Engine) (script : Script) (lineDelay : Span) (ops : List Operation)
    (i : Instruction) (next : Option Instruction) : Prop :=
  let started := (e.start script lineDelay).1
  let after := started.performAll ops
  ∃ part ending rounds more ending', RunSoFar started after part ending ∧
    RunSoFar started (after.finishRun rounds) (part ++ more) ending' ∧
    ∀ earlier time rest, part = earlier ++ (time, .executing i.line i.name) :: rest →
      Led next (started.StoppedDuring ops ∨
        StoppedInCall e.surroundings.device e.stage.calls (part ++ more)) (rest ++ more) ending'

/-- In a script of built-in commands each jump leads on to its target. -/
theorem jump_leadsOn {script : Script} (hscript : script.IsBuiltin)
    (hsorted : script.instructions.Pairwise fun a b => a.line < b.line) {index : Nat}
    {i : Instruction} (hi : script.instructions[index]? = some i) {target : Int}
    (hcall : i.command = .call target) {e : Engine} (hidle : e.isRunning = false)
    (lineDelay : Span) (ops : List Operation) :
    e.LeadsOn script lineDelay ops i (script.targetOf i.line target) := by
  let started := (e.start script lineDelay).1
  have hshows := shows_accounted hscript hidle lineDelay ops
  refine Course.good_in_the_end
    (fun state => ∃ phase, state.point = .resting phase ∧ phase.IsBetween)
    (fun part rest ending => Led (script.targetOf i.line target)
      (started.StoppedDuring ops ∨ StoppedInCall e.surroundings.device e.stage.calls part) rest
      ending)
    (fun rounds => (Course.lasting_accounted hscript started).finishRun rounds hshows) ?_ ?_
  · intro e' state part hseen hstate earlier rest time hpart
    rcases hseen.led hscript hsorted hstate hi hcall hpart with
      hled | ⟨hquiet, phase, hpoint, hphase⟩
    · exact .inl hled
    · have hgoes : state.ending? = none := by rw [Course.State.ending?, hpoint]
      exact .inr ⟨hquiet, hgoes, phase, hpoint, hphase⟩
  · rintro phase hactive ⟨_, hpoint, hphase⟩
    cases hpoint
    exact moves_on hactive.running hactive.worker hphase

end Engine

end InputScript
