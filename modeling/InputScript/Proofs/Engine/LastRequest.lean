import InputScript.Proofs.Command.Request
import InputScript.Proofs.Engine.Termination

/-!
# `InputScript.Proofs.Engine.LastRequest`: what a run makes of the requests of a command

A command asks in any order to go on at lines and to stop. Once it has asked to stop, nothing can
take that back, and no other instruction begins. Otherwise its last request says where the run goes
on, and without a request that is the next instruction (`Script.nextIndex`). Whatever was asked for
before, by the command or by those before it, does not count.

Two marks on the stage carry this, and they may disagree after a jump that follows a stop. So each
point between the beginning of an instruction and that of the next one is followed with both of them
(`Course.Decides`). When an instruction begins, the transfer is wiped and the run is not to stop, so
the requests start anew.

The catalog may hold any commands. The one whose requests are followed makes the same ones in every
course of its program, and nothing is assumed of the others.

* `Course.Heeds.work`: every step of a run heeds the requests.
* `Course.Seen.honoured`: so they are honoured, or the worker has yet to move on.
* `Engine.last_request_decides`: given time, they are honoured.
-/

set_option autoImplicit false

namespace InputScript

open Program (Requests)

/-- The index to which an instruction hands over with its requests, if it does not stop the run:
that for the line of the last one, or the next index. -/
def Script.nextIndex (script : Script) (index : Nat) (requests : List Transfer) : Nat :=
  match requests.getLast? with
  | some (.line line) => script.indexForLine line
  | _ => index + 1

namespace Script

variable {script : Script} {index : Nat} {requests : List Transfer} {s : Stage}

/-- Without a request, control passes to the next index. -/
theorem nextIndex_of_asked (h : s.Asked requests) (hnone : s.transfer = none) :
    script.nextIndex index requests = index + 1 := by
  rw [nextIndex, ← h.transfer, hnone]

/-- The last request decides where a jump leads. -/
theorem nextIndex_of_getLast? {line : Nat} (h : requests.getLast? = some (.line line)) :
    script.nextIndex index requests = script.indexForLine line := by
  rw [nextIndex, h]

end Script

/-- What has come of the requests of an instruction, given what the run has added since it began and
how it has ended. The instruction may perform certain effects. -/
inductive Honoured (script : Script) (index : Nat) (requests : List Transfer)
    (may : Effect → Prop) (rest : List (Nat × Event)) (ending : Option (Nat × Outcome)) : Prop where
  /-- A stop is among the requests. No further instruction has begun, and the run was stopped. -/
  | stops (time : Nat) (hstop : .stop ∈ requests) (hending : ending = some (time, .stopped))
      (hquiet : ∀ entry ∈ rest, entry.2.begun? = none)
  /-- No stop is among them. The instruction to which they lead was the next one to begin, or there
  is none and the run has completed. -/
  | leads (hgoes : .stop ∉ requests)
      (h : Led script.instructions[script.nextIndex index requests]? False rest ending)
  /-- The device has refused an effect of the instruction. -/
  | refused (effect : Effect) (heffect : may effect) (time : Nat) (error : RunError)
      (hending : ending = some (time, .failed error))
      (hquiet : ∀ entry ∈ rest, entry.2.begun? = none)

/-! ### The points behind an instruction -/

namespace Script

variable (script : Script) (index : Nat) (requests : List Transfer)

/-- Whether instructions begin behind the one at an index only where its requests lead. -/
def InTurn (i : Instruction) (part : List (Nat × Event)) : Prop :=
  EachBegins (fun before line name => inProgress? before = some (i.line, i.name) →
    .stop ∉ requests ∧ ∃ j, script.instructions[script.nextIndex index requests]? = some j ∧
      j.line = line ∧ j.name = name) part

end Script

namespace Course

variable (r : Course) (index : Nat) (i : Instruction) (requests : List Transfer)
  (may : Effect → Prop)

/-- What the requests of the instruction at an index say about the points up to the next one. Within
the instruction some of them are made and some are left. -/
def Decides (s : Stage) : Point → Prop
  | .inside at_ p => at_ = index ∧
    ∃ made left, made ++ left = requests ∧ s.Asked made ∧ Requests may p left
  | .resting (.inCommand at_ _ rest) => at_ = index ∧
    ∃ made left, made ++ left = requests ∧ s.Asked made ∧ ∀ full, Requests may (rest full) left
  | .resting (.afterJump line) => requests.getLast? = some (.line line) ∧
    (s.cancelled = true ↔ .stop ∈ requests)
  | .resting (.betweenLines _ next) => next = r.script.nextIndex index requests ∧
    (s.cancelled = true ↔ .stop ∈ requests)
  | .delaying next => next = r.script.nextIndex index requests ∧
    (s.cancelled = true ↔ .stop ∈ requests)
  | .before next => next = r.script.nextIndex index requests ∧
    (s.cancelled = true ↔ .stop ∈ requests)
  | .resting .fresh => False
  | .resting (.beforeStart _) => False
  | .ended .completed => .stop ∉ requests ∧ r.script.length ≤ r.script.nextIndex index requests
  | .ended .stopped => .stop ∈ requests
  | .ended (.failed _) => ∃ effect, may effect

/-- The run heeds the requests of the instruction at an index: they have been heeded wherever it has
begun, and if it began last they decide where the run stands. -/
def Heeds (earlier : List (Nat × Event)) (state : State) : Prop :=
  ∃ part, state.stage.history.reverse = earlier ++ part ∧
    r.script.InTurn index requests i part ∧
    (inProgress? part = some (i.line, i.name) →
      r.Decides index requests may state.stage state.point)

variable {r index i requests may} {earlier : List (Nat × Event)} {state state' : State}

/-- Only the marks of the requests matter where the worker rests. -/
theorem Decides.of_eq {s s' : Stage} {phase : Phase}
    (h : r.Decides index requests may s (.resting phase)) (htransfer : s'.transfer = s.transfer)
    (hcancelled : s'.cancelled = s.cancelled) :
    r.Decides index requests may s' (.resting phase) := by
  cases phase with
  | fresh | beforeStart => exact h
  | inCommand at_ wake rest =>
    obtain ⟨hindex, made, left, hrequests, hmade, hrest⟩ := h
    exact ⟨hindex, made, left, hrequests, hmade.of_eq htransfer hcancelled, hrest⟩
  | afterJump line => exact ⟨h.1, hcancelled ▸ h.2⟩
  | betweenLines wake next => exact ⟨h.1, hcancelled ▸ h.2⟩

/-- A step that adds no event heeds the requests if they decide the new point as well. -/
theorem Heeds.imp (h : r.Heeds index i requests may earlier state)
    (hhistory : state'.stage.history = state.stage.history)
    (himp : r.Decides index requests may state.stage state.point →
      r.Decides index requests may state'.stage state'.point) :
    r.Heeds index i requests may earlier state' := by
  obtain ⟨part, hpart, hturn, hdecides⟩ := h
  exact ⟨part, hhistory ▸ hpart, hturn, fun hlast => himp (hdecides hlast)⟩

/-- What is left of the instruction comes to a halt. -/
theorem Heeds.run (hdevice : ∀ call effect, (r.env.device call effect).stops = false)
    {s s' : Stage} {at_ : Nat} {p : Program} {halt : Halt}
    (h : r.Heeds index i requests may earlier ⟨s, .inside at_ p⟩)
    (hrun : p.run r.env s = (s', halt)) :
    ∃ part, s'.history.reverse = earlier ++ part ∧ r.script.InTurn index requests i part ∧
      (inProgress? part = some (i.line, i.name) →
        at_ = index ∧ halt.Makes may requests s') := by
  obtain ⟨part, hpart, hturn, hdecides⟩ := h
  obtain ⟨quiet, hnew, hquiet⟩ := Program.run_begins_nothing hrun
  refine ⟨part ++ quiet, ?_, hturn.append hquiet, ?_⟩
  · rw [hnew, hpart, List.append_assoc]
  · intro hlast
    rw [Engine.inProgress?_append hquiet] at hlast
    obtain ⟨hindex, made, left, rfl, hmade, hasks⟩ := hdecides hlast
    have hhalt := hasks.run hdevice hmade
    rw [hrun] at hhalt
    exact ⟨hindex, hhalt⟩

/-- Every step of the worker heeds the requests of an instruction. -/
theorem Heeds.work (hsorted : r.script.instructions.Pairwise fun a b => a.line < b.line)
    (hdevice : ∀ call effect, (r.env.device call effect).stops = false)
    (hi : r.script.instructions[index]? = some i) (hasks : Requests may i.command.program requests)
    (h : r.Heeds index i requests may earlier state) (hwork : r.Work state state') :
    r.Heeds index i requests may earlier state' := by
  cases hwork with
  | skipStart | delayStart | wakeToStart => exact h.imp rfl False.elim
  | resume s at_ wake rest j hj =>
    refine h.imp rfl ?_
    rintro ⟨hindex, made, left, hrequests, hmade, hrest⟩
    exact ⟨hindex, made, left, hrequests, hmade, hrest _⟩
  | land | landBehind =>
    refine h.imp rfl ?_
    rintro ⟨hrequest, hcancelled⟩
    exact ⟨(Script.nextIndex_of_getLast? hrequest).symm, hcancelled⟩
  | wakeToNext | skipDelay | delay => exact h
  | halt s at_ hcancelled => exact h.imp rfl fun hbefore => hbefore.2.mp hcancelled
  | finish s at_ hgoes hnone =>
    refine h.imp rfl ?_
    rintro ⟨rfl, hcancelled⟩
    refine ⟨fun hstop => ?_, List.getElem?_eq_none_iff.mp hnone⟩
    rw [hcancelled.mpr hstop] at hgoes
    cases hgoes
  | begin s at_ j hgoes hj =>
    obtain ⟨part, hpart, hturn, hdecides⟩ := h
    refine ⟨_, Stage.added_record hpart (.executing j.line j.name), ?_, ?_⟩
    · refine hturn.begin s.now fun hlast => ?_
      obtain ⟨rfl, hcancelled⟩ := hdecides hlast
      refine ⟨fun hstop => ?_, j, hj, rfl, rfl⟩
      rw [hcancelled.mpr hstop] at hgoes
      cases hgoes
    · intro hlast
      rw [inProgress?_of_begun part s.now j.line j.name (by simp), Option.some.injEq,
        Prod.mk.injEq] at hlast
      obtain ⟨rfl, rfl⟩ := Script.eq_of_line hsorted hi hj hlast.1
      -- It is the instruction itself that begins, and all of its requests are left.
      exact ⟨rfl, [], requests, rfl, .begin hgoes at_ j, hasks⟩
  | pause s s' at_ j p wake rest hj hrun =>
    obtain ⟨part, hpart, hturn, hhalt⟩ := h.run hdevice hrun
    exact ⟨part, hpart, hturn, hhalt⟩
  | fail s s' at_ j p cause hj hrun =>
    obtain ⟨part, hpart, hturn, hhalt⟩ := h.run hdevice hrun
    exact ⟨part, hpart, hturn, fun hlast => (hhalt hlast).2⟩
  | crash s s' at_ j p hj hrun =>
    obtain ⟨part, hpart, hturn, hhalt⟩ := h.run hdevice hrun
    exact ⟨part, hpart, hturn, fun hlast => (hhalt hlast).2⟩
  | jump s s' at_ j p target hj hrun htransfer =>
    obtain ⟨part, hpart, hturn, hhalt⟩ := h.run hdevice hrun
    have hquiet : ∀ entry ∈ [(s'.now, Event.jumped j.line target)], entry.2.begun? = none := by
      simp [Event.begun?]
    refine ⟨_, Stage.added_record hpart _, hturn.append hquiet, fun hlast => ?_⟩
    rw [Engine.inProgress?_append hquiet] at hlast
    obtain ⟨-, hasked⟩ := hhalt hlast
    exact ⟨hasked.transfer.symm.trans htransfer, hasked.cancelled⟩
  | stop s s' at_ j p hj hrun htransfer =>
    obtain ⟨part, hpart, hturn, hhalt⟩ := h.run hdevice hrun
    refine ⟨part, hpart, hturn, fun hlast => ?_⟩
    obtain ⟨-, hasked⟩ := hhalt hlast
    exact List.mem_of_getLast? (hasked.transfer.symm.trans htransfer)
  | pass s s' at_ j p hj hrun hnone | passLast s s' at_ j p hj hrun hnone =>
    obtain ⟨part, hpart, hturn, hhalt⟩ := h.run hdevice hrun
    refine ⟨part, hpart, hturn, fun hlast => ?_⟩
    obtain ⟨rfl, hasked⟩ := hhalt hlast
    exact ⟨(Script.nextIndex_of_asked hasked hnone).symm, hasked.cancelled⟩

/-- A run in which nobody asks for a stop heeds the requests of an instruction. -/
theorem kept_heeds (hsorted : r.script.instructions.Pairwise fun a b => a.line < b.line)
    (hdevice : ∀ call effect, (r.env.device call effect).stops = false)
    (hi : r.script.instructions[index]? = some i) (hasks : Requests may i.command.program requests)
    (origin : State) : r.Kept origin (r.Heeds index i requests may earlier) where
  work := fun _ hwork h => h.work hsorted hdevice hi hasks hwork
  tick := fun _ _ _ h => h.imp rfl fun hdecides => hdecides.of_eq rfl rfl
  turnAway := by
    intro s phase event hevent ⟨part, hpart, hturn, hdecides⟩
    have hquiet : ∀ entry ∈ [(s.now, event)], entry.2.begun? = none := by
      rcases hevent with rfl | rfl <;> simp [Event.begun?]
    refine ⟨_, Stage.added_record hpart event, hturn.append hquiet, fun hlast => ?_⟩
    rw [Engine.inProgress?_append hquiet] at hlast
    exact (hdecides hlast).of_eq rfl rfl

/-- Where a run is seen that heeds the requests of an instruction, they are honoured, or no other
instruction has begun since and the run goes on. -/
theorem Seen.honoured {started e : Engine} {part before rest : List (Nat × Event)} {time : Nat}
    (hseen : r.Seen started e state part)
    (hheeds : r.Heeds index i requests may started.events state)
    (hpart : part = before ++ (time, .executing i.line i.name) :: rest) :
    Honoured r.script index requests may rest state.ending? ∨
      (∀ entry ∈ rest, entry.2.begun? = none) ∧ state.ending? = none := by
  obtain ⟨part', hhistory, hturn, hdecides⟩ := hheeds
  obtain rfl : part = part' := List.append_cancel_left (hseen.history.symm.trans hhistory)
  rcases quiet_or_begins rest with hquiet | ⟨quiet, time', line, name, later, rfl, hquiet⟩
  · have hlast : inProgress? part = some (i.line, i.name) :=
      hpart ▸ inProgress?_of_begun before time _ _ hquiet
    have hpoint := hdecides hlast
    obtain ⟨s, point⟩ := state
    match point, hpoint with
    | .ended .completed, ⟨hgoes, hend⟩ =>
      have hnone := List.getElem?_eq_none hend
      exact .inl (.leads hgoes (.completes s.now hnone rfl hquiet))
    | .ended .stopped, hstop => exact .inl (.stops s.now hstop rfl hquiet)
    | .ended (.failed error), ⟨effect, heffect⟩ =>
      exact .inl (.refused effect heffect s.now error rfl hquiet)
    | .resting _, _ | .delaying _, _ | .before _, _ | .inside _ _, _ => exact .inr ⟨hquiet, rfl⟩
  · -- Another instruction has begun, and it is the one to which the requests lead.
    have hsplit : part = (before ++ (time, .executing i.line i.name) :: quiet) ++
        (time', .executing line name) :: later := by
      rw [hpart, List.append_assoc]
      rfl
    obtain ⟨hgoes, j, hj, rfl, rfl⟩ := hturn _ time' line name later hsplit
      (inProgress?_of_begun before time _ _ hquiet)
    exact .inl (.leads hgoes (.begins j time' quiet later hj rfl hquiet))

end Course

/-- The entry of a command that makes requests and does nothing else. -/
def Descriptor.asking (name : String) (requests : List Transfer) : Descriptor :=
  ⟨name, .exactly 0, name, .custom name fun scope => .ok (scope.params, .asking requests)⟩

namespace Engine

/-- The requests of a command decide what comes next. In a script that was compiled with any
catalog, the program of an instruction makes the same requests in every course that it can take.
Nobody stops the run from outside, neither by an operation nor while the device performs an effect.
Whatever else was done, given time it holds for each time at which the instruction has begun: if a
stop is among the requests, whatever comes behind it, then no further instruction begins and the run
ends as stopped. Otherwise the instruction at the index for the line of the last request begins
next, or the one behind if there was no request, and where there is none the run completes. Only an
effect of the instruction that the device refuses can end the run before that. -/
theorem last_request_decides {catalog : Catalog} {lines : List String} {script : Script}
    (hcompile : catalog.compile lines = .ok script) {index : Nat} {i : Instruction}
    (hi : script.instructions[index]? = some i) {requests : List Transfer} {may : Effect → Prop}
    (hasks : i.command.program.Requests may requests) {e : Engine} (hidle : e.isRunning = false)
    (hdevice : ∀ call effect, (e.surroundings.device call effect).stops = false)
    (lineDelay : Span) (ops : List Operation) (hops : ∀ op ∈ ops, op ≠ .stop) :
    let started := (e.start script lineDelay).1
    let after := started.performAll ops
    ∃ part ending rounds more ending', RunSoFar started after part ending ∧
      RunSoFar started (after.finishRun rounds) (part ++ more) ending' ∧
      ∀ earlier time rest, part = earlier ++ (time, .executing i.line i.name) :: rest →
        Honoured script index requests may (rest ++ more) ending' := by
  intro started after
  let r := e.courseOf script lineDelay
  have hsorted := Catalog.sorted_of_compile hcompile
  have hactive : r.Active started .fresh started := by
    show Course.Active _ (e.start script lineDelay).1 .fresh (e.start script lineDelay).1
    rw [start_of_idle hidle]
    exact e.active_launch script lineDelay
  have hbegin : r.Heeds index i requests may started.events ⟨started.stage, .resting .fresh⟩ :=
    ⟨[], (List.append_nil _).symm, EachBegins.nil, fun hlast => by cases hlast⟩
  have hlasting : Lasting (· ≠ .stop)
      (r.Shows (r.Heeds index i requests may started.events) started) :=
    Course.lasting_shows started (Course.kept_heeds hsorted hdevice hi hasks _)
      fun hstop => absurd rfl hstop
  have hshows := hlasting.performAll hops (.inl ⟨.fresh, hactive, hbegin⟩)
  refine Course.good_in_the_end (fun _ => True)
    (fun _ rest ending => Honoured script index requests may rest ending)
    (fun rounds => hlasting.finishRun rounds hshows) ?_ fun phase hactive _ => hactive.moves_on
  intro e' state part hseen hheeds earlier rest time hpart
  rcases hseen.honoured hheeds hpart with hdone | ⟨hquiet, hgoes⟩
  · exact .inl hdone
  · exact .inr ⟨hquiet, hgoes, trivial⟩

/-- One command jumps twice, and one stops and jumps. The first leads to the line of its second
jump, where the other one begins, and nothing follows that but the end of the run. -/
theorem last_request_decides_twice : ∃ (catalog : Catalog) (script : Script),
    catalog.compile ["Twice", "MouseClick", "Quit"] = .ok script ∧
      (let started := ((Engine.new .zero .plain).start script .zero).1
       (∃ part ending rounds more ending',
          RunSoFar started (started.performAll [.yield 1]) part ending ∧
          RunSoFar started ((started.performAll [.yield 1]).finishRun rounds) (part ++ more)
            ending' ∧
          ∀ earlier time rest, part = earlier ++ (time, .executing 1 "Twice") :: rest →
            Honoured script 0 [.line 9, .line 3] (fun _ => False) (rest ++ more) ending') ∧
        (∃ part ending rounds more ending',
          RunSoFar started (started.performAll [.yield 2]) part ending ∧
          RunSoFar started ((started.performAll [.yield 2]).finishRun rounds) (part ++ more)
            ending' ∧
          ∀ earlier time rest, part = earlier ++ (time, .executing 3 "Quit") :: rest →
            Honoured script 2 [.stop, .line 1] (fun _ => False) (rest ++ more) ending') ∧
        (started.finishRun 9).events = [(0, .started 3 0), (0, .executing 1 "Twice"),
          (0, .jumped 1 3), (0, .executing 3 "Quit"), (0, .jumped 3 1), (0, .ended .stopped)]) := by
  let script : Script := ⟨[⟨1, [], .custom "Twice" (.asking [.line 9, .line 3])⟩,
    ⟨2, [], .mouseClick .left⟩, ⟨3, [], .custom "Quit" (.asking [.stop, .line 1])⟩], 3⟩
  have hcompile : (⟨Catalog.builtin.entries ++ [.asking "Twice" [.line 9, .line 3],
      .asking "Quit" [.stop, .line 1]]⟩ : Catalog).compile ["Twice", "MouseClick", "Quit"] =
      .ok script := by
    with_unfolding_all rfl
  have htwice : script.instructions[0]? =
      some ⟨1, [], .custom "Twice" (.asking [.line 9, .line 3])⟩ := rfl
  have hquit : script.instructions[2]? =
      some ⟨3, [], .custom "Quit" (.asking [.stop, .line 1])⟩ := rfl
  have hdevice : ∀ call effect, (Surroundings.plain.device call effect).stops = false :=
    fun _ _ => rfl
  refine ⟨_, script, hcompile, ?_, ?_, by decide +kernel⟩
  · exact last_request_decides hcompile htwice (Program.requests_asking _)
      (e := Engine.new .zero .plain) rfl hdevice .zero [.yield 1] (by simp)
  · exact last_request_decides hcompile hquit (Program.requests_asking _)
      (e := Engine.new .zero .plain) rfl hdevice .zero [.yield 2] (by simp)

end Engine

end InputScript
