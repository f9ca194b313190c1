import InputScript.Proofs.Engine.Handover
import InputScript.Proofs.Engine.Path
import InputScript.Proofs.LineMachine.Ending

/-!
# `InputScript.Proofs.Engine.Termination`: runs that end

A worker never stays in one instruction for good, since every pause of its program that lasts leaves
only a part of it. So given time another instruction begins or the run ends. In a script whose jumps
all lead forward the instructions begin at increasing indices, so there are no more of them than the
script has, and the run ends.

* `Engine.moves_on_of_program`: given time, a worker gets out of an instruction.
* `Course.Active.moves_on`: so it does from wherever it rests.
* `Course.Shows.over`: a run in which only so many instructions can begin ends.
* `Engine.forward_run_ends`: in particular one of a script whose jumps lead forward.
-/

set_option autoImplicit false

namespace InputScript

/-- What is to be said of a run that has passed through a script whose jumps all lead forward: where
it has been and how it has ended. The run began when the device had been asked `first` times, and
its events, the calls among them, are `part`. Whether an operation asked it to stop is given as
`outside`. -/
structure Script.PassedThrough (script : Script) (device : Device) (first : Nat) (outside : Prop)
    (part : List (Nat × Event)) (outcome : Outcome) : Prop where
  /-- The instructions have begun at increasing indices. -/
  increasing : (script.path part).Pairwise (· < ·)
  inside : ∀ index ∈ script.path part, index < script.length
  /-- There were no more of them than the script has. -/
  length_le : (script.path part).length ≤ script.length
  /-- If nothing else stopped the run and no call of it failed, it has completed, or the command
  that stops has begun and the run was stopped. -/
  outcome : (∀ reply ∈ replies device first (asksOf part), reply = .done) → ¬outside →
    outcome = .stopped ∧ StopBegun part ∨ outcome = .completed ∧ ¬StopBegun part

namespace Engine

/-- Given time, an engine that has come to be `later` has moved on since it was `e`. -/
def MovesOn (e later : Engine) : Prop :=
  ∃ rounds, e.MovesTo (later.finishRun rounds)

variable {e later : Engine} {w : Worker} {new : List (Nat × Event)}

/-! ### Waiting for the next instruction -/

namespace MovesOn

/-- An engine that has begun an instruction has moved on. -/
theorem of_begun (hnew : later.events = e.events ++ new)
    (hbegun : ∃ entry ∈ new, entry.2.begun? ≠ none) : e.MovesOn later := by
  obtain ⟨entry, hentry, hbegun⟩ := hbegun
  exact ⟨0, new, hnew, entry, hentry, .inl hbegun⟩

/-- An engine in which the run has ended has moved on. -/
theorem of_close {stage : Stage} (hnew : stage.history.reverse = e.events ++ new)
    (reported told : Outcome) : e.MovesOn (e.close stage reported told) := by
  refine ⟨0, new ++ (stage.now, .ended reported) :: e.announcement stage.now reported, ?_,
    (stage.now, .ended reported), List.mem_append_right new List.mem_cons_self, .inr rfl⟩
  rw [finishRun, events_close, hnew, List.append_assoc]

/-- What moves on from a later state moves on from an earlier one. -/
theorem of_events {between : Engine} (h : between.MovesOn later)
    (hnew : between.events = e.events ++ new) : e.MovesOn later := by
  obtain ⟨rounds, more, hmore, entry, hentry, hmoved⟩ := h
  refine ⟨rounds, new ++ more, ?_, entry, List.mem_append_right new hentry, hmoved⟩
  rw [hmore, hnew, List.append_assoc]

/-- An engine whose worker can go on moves on if it does after a poll. -/
theorem of_poll (hrunning : later.running = true) (hready : later.isReady = true)
    (h : e.MovesOn later.poll) : e.MovesOn later := by
  obtain ⟨rounds, hmoves⟩ := h
  refine ⟨rounds + 1, ?_⟩
  rwa [finishRun_of_ready hrunning hready]

/-- An engine whose worker sleeps moves on if it does after the poll that wakes it, at whatever time
that is. -/
theorem of_wake (hrunning : later.running = true) (hw : later.worker = some w) {wake : Nat}
    (hwake : w.phase.wake? = some wake)
    (h : ∀ now, (later.setClock now).isReady = true → e.MovesOn (later.setClock now).poll) :
    e.MovesOn later := by
  by_cases hready : later.isReady = true
  · exact of_poll hrunning hready (h later.stage.now hready)
  · have hsleeps : later.wake? = some wake := by rw [wake?, hw, Option.bind_some, hwake]
    have hready' : (later.setClock wake).isReady = true := by
      simp [isReady, setClock, hw, Phase.isReady, hwake]
    have hwoken : e.MovesOn (later.setClock wake) := of_poll hrunning hready' (h wake hready')
    obtain ⟨rounds, hmoves⟩ := hwoken
    refine ⟨rounds + 1, ?_⟩
    rwa [finishRun_of_waits hrunning (by simpa using hready) hsleeps]

end MovesOn

/-- Behind a stretch an engine moves on, if the stretch has begun an instruction, has ended the run
or has come to the delay before the next line. -/
theorem moves_on_of_stretch (hrunning : e.running = true) {stage : Stage} {progress : Progress}
    (hnew : stage.history.reverse = e.events ++ new)
    (h : ∀ phase, progress = .suspended phase →
      (∃ entry ∈ new, entry.2.begun? ≠ none) ∨ ∃ wake next, phase = .betweenLines wake next) :
    e.MovesOn (e.afterStretch w (stage, progress)) := by
  cases progress with
  | ended outcome => exact .of_close hnew outcome outcome
  | crashed => exact .of_close hnew .crashed _
  | suspended phase =>
    rcases h phase rfl with hbegun | ⟨wake, next, hphase⟩
    · exact .of_begun hnew hbegun
    · have hsleep := moves_on_of_sleep (e := e.suspend stage { w with phase := phase })
        hrunning rfl hphase
      exact MovesOn.of_events hsleep hnew

/-- A worker that is to begin an instruction moves on. -/
theorem moves_on_of_continueAt (hrunning : e.running = true) {s : Stage}
    (hnew : s.history.reverse = e.events ++ new) (index : Nat) :
    e.MovesOn (e.afterStretch w (w.continueAt e.surroundings index s)) := by
  obtain ⟨⟨stage, progress⟩, hstretch⟩ :
      ∃ result, w.continueAt e.surroundings index s = result := ⟨_, rfl⟩
  rw [hstretch]
  cases progress with
  | suspended phase =>
    -- Where the worker is suspended, the instruction has begun.
    obtain ⟨i, more, hmore⟩ := Worker.begins_of_runFrom hstretch
    rw [hnew, List.append_assoc] at hmore
    refine moves_on_of_stretch hrunning hmore fun _ _ => .inl ⟨(s.now, .executing i.line i.name),
      List.mem_append_right new List.mem_cons_self, by simp [Event.begun?]⟩
  | ended | crashed =>
    obtain ⟨more, hmore⟩ := (Worker.runFrom_steps e.surroundings w.lineDelay index
      (w.script.instructions.drop index) s).added
    have hstage : stage.history.reverse = e.events ++ (new ++ more.reverse) := by
      rw [← congrArg (·.1.history) hstretch, Worker.continueAt, hmore.history, List.reverse_append,
        hnew, List.append_assoc]
    exact moves_on_of_stretch hrunning hstage (by simp)

/-- A worker whose instruction has returned without a transfer moves on. -/
theorem moves_on_of_returned (hrunning : e.running = true) {s : Stage}
    (hnew : s.history.reverse = e.events ++ new) (hnone : s.transfer = none) (index : Nat)
    (i : Instruction) (isLast : Bool) :
    e.MovesOn (e.afterStretch w (Worker.settle e.surroundings.timer w.lineDelay index i isLast
      (w.continueAt e.surroundings (index + 1)) s .returned)) := by
  rw [Worker.settle, hnone]
  dsimp only
  split
  · exact moves_on_of_continueAt hrunning hnew (index + 1)
  · rw [Worker.delayLine]
    split
    · exact moves_on_of_continueAt hrunning hnew (index + 1)
    · exact moves_on_of_stretch hrunning hnew (by simp)
    · refine moves_on_of_stretch hrunning hnew ?_
      intro phase hphase
      cases hphase
      exact .inr ⟨_, _, rfl⟩

/-! ### Inside an instruction -/

/-- A poll of a worker that can go on is a stretch of it. -/
theorem poll_of_ready (hw : e.worker = some w) (hready : e.isReady = true) :
    e.poll = e.afterStretch w (w.poll e.surroundings e.startDelay e.stage) := by
  have hgoes : w.phase.isReady e.stage.cancelled e.stage.now = true := by
    simpa only [isReady, hw] using hready
  rw [poll, hw]
  exact if_pos hgoes

/-- A poll of a worker inside an instruction goes on with the rest of its program. -/
theorem poll_of_inCommand (hw : e.worker = some w) {index wake : Nat} {rest : Bool → Program}
    (hphase : w.phase = .inCommand index wake rest) {i : Instruction} {following : List Instruction}
    (hi : w.script.instructions.drop index = i :: following) (hready : e.isReady = true) :
    let full := Sleep.isFull e.stage.cancelled (e.surroundings.tie e.stage.now) wake e.stage.now
    e.poll = e.afterStretch w (Worker.settle e.surroundings.timer w.lineDelay index i
      following.isEmpty (w.continueAt e.surroundings (index + 1))
      ((rest full).run e.surroundings e.stage).1 ((rest full).run e.surroundings e.stage).2) := by
  intro full
  rw [poll_of_ready hw hready, Worker.poll, hphase]
  dsimp only
  rw [Worker.resume, hi]

/-- A worker whose instruction has returned moves on, whatever it was asked for. -/
theorem moves_on_of_handover (hrunning : e.running = true) {s : Stage}
    (hnew : s.history.reverse = e.events ++ new) (index : Nat) (i : Instruction) (isLast : Bool) :
    e.MovesOn (e.afterStretch w (Worker.settle e.surroundings.timer w.lineDelay index i isLast
      (w.continueAt e.surroundings (index + 1)) s .returned)) := by
  cases htransfer : s.transfer with
  | none => exact moves_on_of_returned hrunning hnew htransfer index i isLast
  | some transfer =>
    rw [Worker.settle, htransfer]
    cases transfer with
    | stop => exact moves_on_of_stretch hrunning hnew (by simp)
    | line target =>
      let jumped :=
        e.suspend (s.record (.jumped i.line target)) { w with phase := .afterJump target }
      have hlater : jumped.MovesOn jumped := moves_on hrunning rfl trivial
      exact hlater.of_events (Stage.added_record hnew _)

/-- A worker moves on with whatever is left of the program of its instruction. -/
theorem moves_on_of_program (p : Program) {index : Nat} {i : Instruction}
    {following : List Instruction} (hi : w.script.instructions.drop index = i :: following)
    (hrunning : e.running = true) {s : Stage} (hnew : s.history.reverse = e.events ++ new) :
    e.MovesOn (e.afterStretch w (Worker.settle e.surroundings.timer w.lineDelay index i
      following.isEmpty (w.continueAt e.surroundings (index + 1)) (p.run e.surroundings s).1
      (p.run e.surroundings s).2)) := by
  induction p generalizing e w s new with
  | done => exact moves_on_of_handover hrunning hnew index i following.isEmpty
  | fail cause => exact moves_on_of_stretch hrunning hnew (by simp)
  | crash => exact moves_on_of_stretch hrunning hnew (by simp)
  | call effect next failed ih ihFailed =>
    have hcalled : (s.call e.surroundings.device effect).history.reverse =
        e.events ++ (new ++ s.callEvents e.surroundings.device effect) := by
      rw [s.reverse_history_call, hnew, List.append_assoc]
    rw [Program.run]
    split
    · exact ih hi hrunning hcalled
    · exact ihFailed _ hi hrunning hcalled
    -- The device has crashed, and the run ends.
    · exact moves_on_of_stretch hrunning hcalled (by simp)
  | pause span next ih =>
    rw [Program.run]
    split
    · exact ih _ hi hrunning hnew
    · rename_i wake _
      -- The worker sleeps in the instruction, and goes on with what is left of its program.
      let asleep : Worker := { w with phase := .inCommand index wake next }
      let slept := e.suspend s asleep
      have hwoken : slept.MovesOn slept := by
        refine .of_wake (w := asleep) hrunning rfl rfl ?_
        intro now hready
        rw [poll_of_inCommand (w := asleep) rfl rfl hi hready]
        exact ih _ (e := slept.setClock now) (w := asleep) hi hrunning (List.append_nil _).symm
      exact hwoken.of_events hnew
  | stopping next ih => exact ih s.cancelled hi hrunning hnew
  | jump line next ih | stop next ih => exact ih hi hrunning hnew
  | choose low high next ih => exact ih _ hi hrunning hnew

/-- A worker that waits for the start of its script moves on. -/
theorem moves_on_of_beforeStart (hrunning : e.running = true) (hw : e.worker = some w) {wake : Nat}
    (hphase : w.phase = .beforeStart wake) : e.MovesOn e := by
  refine .of_wake hrunning hw (show w.phase.wake? = some wake by rw [hphase]; rfl) ?_
  intro now hready
  have hnew : (e.setClock now).stage.history.reverse = (e.setClock now).events ++ [] :=
    (List.append_nil _).symm
  rw [poll_of_ready (e := e.setClock now) hw hready, Worker.poll, hphase]
  dsimp only
  split
  · exact moves_on_of_stretch (e := e.setClock now) hrunning hnew (by simp)
  · exact moves_on_of_continueAt (e := e.setClock now) hrunning hnew 0

end Engine

namespace Course

variable {r : Course} {started e : Engine} {phase : Phase}

/-- Given time, an active run moves on, wherever its worker rests. -/
theorem Active.moves_on (h : r.Active started phase e) : e.MovesOn e := by
  have hnew : e.stage.history.reverse = e.events ++ [] := (List.append_nil _).symm
  cases phase with
  | fresh =>
    have hready : e.isReady = true := by
      rw [Engine.isReady, h.worker]
      rfl
    refine .of_poll h.running hready ?_
    rw [Engine.poll_of_ready h.worker hready, Worker.poll, Course.worker]
    dsimp only
    split
    · exact Engine.moves_on_of_continueAt h.running hnew 0
    · exact Engine.moves_on_of_stretch h.running hnew (by simp)
    · exact Engine.moves_on_of_beforeStart h.running rfl rfl
  | beforeStart wake => exact Engine.moves_on_of_beforeStart h.running h.worker rfl
  | afterJump | betweenLines => exact Engine.moves_on h.running h.worker trivial
  | inCommand index wake rest =>
    obtain ⟨i, hi⟩ := h.lies
    have hdrop : (r.worker (.inCommand index wake rest)).script.instructions.drop index =
        i :: r.script.instructions.drop (index + 1) := Script.drop_eq_cons_iff.mpr ⟨hi, rfl⟩
    refine .of_wake h.running h.worker rfl ?_
    intro now hready
    rw [Engine.poll_of_inCommand (e := e.setClock now) h.worker rfl hdrop hready]
    exact Engine.moves_on_of_program _ hdrop (e := e.setClock now) h.running hnew

/-- Given time, a run is over that keeps a property with which only so many instructions can have
begun. -/
theorem Shows.over {admitted : Operation → Prop} {P : State → Prop} {bound : Nat}
    (hlasting : Engine.Lasting admitted (r.Shows P started))
    (hbound : ∀ (e : Engine) (state : State) (part : List (Nat × Event)),
      r.Seen started e state part → P state → (r.script.path part).length ≤ bound)
    (h : r.Shows P started e) :
    ∃ rounds s outcome, r.Ended started s outcome (e.finishRun rounds) ∧ P ⟨s, .ended outcome⟩ := by
  obtain ⟨state, part, hseen, -⟩ := h.seen
  -- As many instructions can still begin as are missing to the bound.
  obtain ⟨left, hleft⟩ : ∃ left, bound < (r.script.path part).length + left :=
    ⟨bound + 1, by omega⟩
  induction left generalizing e state part with
  | zero =>
    obtain ⟨state', part', hseen', hstate⟩ := h.seen
    obtain ⟨rfl, -⟩ := hseen.runSoFar.unique hseen'.runSoFar
    have hle := hbound _ _ _ hseen' hstate
    omega
  | succ left ih =>
    rcases id h with ⟨phase, hactive, hstate⟩ | ⟨s, outcome, hended, hstate⟩
    · obtain ⟨rounds, added, hadded, entry, hentry, hmoved⟩ := hactive.moves_on
      have h' := hlasting.finishRun rounds h
      rcases id h' with ⟨phase', hactive', -⟩ | ⟨s, outcome, hended, hstate'⟩
      · obtain ⟨part₀, hseen₀⟩ := hactive.seen
        obtain ⟨rfl, -⟩ := hseen.runSoFar.unique hseen₀.runSoFar
        obtain ⟨part', hseen'⟩ := hactive'.seen
        obtain ⟨more, rfl, hmore⟩ := hseen₀.runSoFar.extends hseen'.runSoFar hadded
        obtain rfl : more = added := hmore rfl
        have hquiet := hseen'.runSoFar.quiet entry (List.mem_append_right part hentry)
        have hbegun : entry.2.begun? ≠ none :=
          hmoved.resolve_right fun hreport => by simp [hquiet] at hreport
        have hlonger : 0 < (r.script.path more).length := by
          obtain ⟨begun, hsome⟩ := Option.ne_none_iff_exists'.mp hbegun
          rw [Script.path, List.length_map]
          exact List.length_pos_of_mem (List.mem_filterMap.mpr ⟨entry, hentry, hsome⟩)
        obtain ⟨rounds', s, outcome, hended, hstate'⟩ := ih h' _ _ hseen' (by
          rw [Script.path_append, List.length_append]
          omega)
        rw [Engine.finishRun_add] at hended
        exact ⟨rounds + rounds', s, outcome, hended, hstate'⟩
      · exact ⟨rounds, s, outcome, hended, hstate'⟩
    · exact ⟨0, s, outcome, hended, hstate⟩

/-- Where a run is seen, its instructions have begun along a path. -/
theorem Seen.isPath (hscript : r.script.IsBuiltin)
    (hsorted : r.script.instructions.Pairwise fun a b => a.line < b.line) {state : State}
    {part : List (Nat × Event)} (h : r.Seen started e state part) :
    r.script.IsPath (r.script.path part) ∧
      (r.script.path part).map (fun index =>
        (r.script.instructions[index]?).map fun i => (i.line, i.name)) =
          (part.filterMap fun entry => entry.2.begun?).map some :=
  (h.controlled hscript hsorted).1.isPath hsorted

/-- Where a run is over that keeps account of what could stop it, its script having no jump back. -/
theorem Accounted.passedThrough (hscript : r.script.IsBuiltin)
    (hsorted : r.script.instructions.Pairwise fun a b => a.line < b.line)
    (hforward : r.script.JumpsForward) {first : Nat} {outside : Prop} {s : Stage}
    {outcome : Outcome} {part : List (Nat × Event)}
    (hseen : r.Seen started e ⟨s, .ended outcome⟩ part)
    (haccounted : r.Accounted first started.events outside ⟨s, .ended outcome⟩) :
    s.calls = first + (asksOf part).length ∧
      r.script.PassedThrough r.env.device first outside part outcome := by
  obtain ⟨hpath, -⟩ := hseen.isPath hscript hsorted
  have hlt := hpath.pairwise_lt hsorted fun _ _ _ hi => hforward.not_jumpsBack hi
  obtain ⟨-, hplaced⟩ := hseen.controlled hscript hsorted
  obtain ⟨hcalls, -, hverdict⟩ :=
    haccounted.verdict (Reaches.fits hscript hseen.reaches) hplaced hseen.history
  have hverdict := hverdict s.now outcome rfl
  refine ⟨hcalls, hlt, hpath.inside, hpath.length_le hlt, ?_⟩
  intro hdone houtside
  have hgranted : ∀ reply ∈ replies r.env.device first (asksOf part), ¬reply.Refuses := by
    intro reply hreply
    rw [hdone reply hreply]
    exact fun hrefuses => hrefuses rfl
  have hnot : ¬StoppedInCall r.env.device first part := by
    rintro ⟨reply, hreply, hstops⟩
    rw [hdone reply hreply] at hstops
    cases hstops
  by_cases hbegun : StopBegun part
  · exact .inl ⟨hverdict.stopped.mpr ⟨hgranted, .inr (.inr hbegun)⟩, hbegun⟩
  · refine .inr ⟨hverdict.completed.mpr ⟨hgranted, ?_⟩, hbegun⟩
    rintro (h | h | h)
    · exact houtside h
    · exact hnot h
    · exact hbegun h

end Course

namespace Engine

/-- A run of a script that was compiled begins with the first instruction and goes from each to the
one to which it hands over. One begins twice only if a jump to its own line or to one before it has
begun. In a script without such a jump the instructions begin at increasing indices, so each of them
at most once, and given time the run ends: if nothing else stops it and the device performs what it
is asked for in the calls that the run makes, it has completed, or the script has stopped it. All of
this is so whatever the delays and the device are, and whatever is done with the engine. -/
theorem forward_run_ends {lines : List String} {script : Script}
    (hcompile : Catalog.builtin.compile lines = .ok script) {e : Engine}
    (hidle : e.isRunning = false) (lineDelay : Span) (ops : List Operation) :
    let started := (e.start script lineDelay).1
    let after := started.performAll ops
    ∃ part ending, RunSoFar started after part ending ∧ script.IsPath (script.path part) ∧
      (script.path part).map (fun index =>
        (script.instructions[index]?).map fun i => (i.line, i.name)) =
          (part.filterMap fun entry => entry.2.begun?).map some ∧
      (¬(script.path part).Nodup →
        ∃ index ∈ script.path part, ∃ i, script.instructions[index]? = some i ∧ i.JumpsBack) ∧
      (script.JumpsForward → ∃ rounds more time outcome,
        let ended := after.finishRun rounds
        RunSoFar started ended (part ++ more) (some (time, outcome)) ∧
        (ended.runs = started.runs →
          ended.stage.calls = e.stage.calls + (asksOf (part ++ more)).length) ∧
        script.PassedThrough e.surroundings.device e.stage.calls (started.StoppedDuring ops)
          (part ++ more) outcome) := by
  intro started after
  have hcompiled : script.IsCompiled := ⟨lines, hcompile⟩
  have hscript := hcompiled.isBuiltin
  have hsorted := hcompiled.sorted
  have hshows := shows_accounted hscript hidle lineDelay ops
  obtain ⟨state, part, hseen, -⟩ := hshows.seen
  obtain ⟨hpath, hspec⟩ := hseen.isPath hscript hsorted
  refine ⟨part, state.ending?, hseen.runSoFar, hpath, hspec, hpath.exists_jumpsBack hsorted, ?_⟩
  intro hforward
  have hbound (e' : Engine) (state : Course.State) (part : List (Nat × Event))
      (h : (e.courseOf script lineDelay).Seen started e' state part) :
      (script.path part).length ≤ script.length := by
    obtain ⟨hpath, -⟩ := h.isPath hscript hsorted
    exact hpath.length_le (hpath.pairwise_lt hsorted fun _ _ _ hi => hforward.not_jumpsBack hi)
  rcases id hshows with ⟨phase, hactive, -⟩ | ⟨s, outcome, hended, haccounted⟩
  · obtain ⟨rounds, s, outcome, hended, haccounted⟩ :=
      hshows.over (Course.lasting_accounted hscript started)
        fun e' state part h _ => hbound e' state part h
    obtain ⟨part₀, hseen₀⟩ := hactive.seen
    obtain ⟨rfl, -⟩ := hseen.runSoFar.unique hseen₀.runSoFar
    obtain ⟨part', hseen'⟩ := hended.seen
    obtain ⟨added, hadded⟩ := after.events_finishRun rounds
    obtain ⟨more, rfl, -⟩ := hseen₀.runSoFar.extends hseen'.runSoFar hadded
    obtain ⟨hcalls, hpassed⟩ := haccounted.passedThrough hscript hsorted hforward hseen'
    exact ⟨rounds, more, s.now, outcome, hseen'.runSoFar,
      fun hruns => (hseen'.calls_eq hruns).trans hcalls, hpassed⟩
  · obtain ⟨part', hseen'⟩ := hended.seen
    obtain ⟨rfl, -⟩ := hseen.runSoFar.unique hseen'.runSoFar
    obtain ⟨hcalls, hpassed⟩ := haccounted.passedThrough hscript hsorted hforward hseen'
    refine ⟨0, [], s.now, outcome, ?_⟩
    rw [List.append_nil]
    exact ⟨hseen'.runSoFar, fun hruns => (hseen'.calls_eq hruns).trans hcalls, hpassed⟩

/-- A jump over one line to the command that stops: two instructions begin. -/
theorem forward_run_ends_at_stop : ∃ script,
    Catalog.builtin.compile ["Call 3", "MouseClick", "Stop"] = .ok script ∧ script.JumpsForward ∧
      (let started := ((Engine.new .zero Surroundings.plain).start script (.ofMillis 20)).1
       (∃ rounds part time outcome,
          let ended := started.finishRun rounds
          RunSoFar started ended part (some (time, outcome)) ∧
          (ended.runs = started.runs → ended.stage.calls = (asksOf part).length) ∧
          script.PassedThrough Surroundings.plain.device 0 (started.StoppedDuring []) part
            outcome) ∧
        (started.finishRun 5).events = [(0, .started 3 20), (0, .executing 1 "Call"),
          (0, .jumped 1 3), (20, .executing 3 "Stop"), (20, .ended .stopped)]) := by
  have hcompile : Catalog.builtin.compile ["Call 3", "MouseClick", "Stop"] =
      .ok ⟨[⟨1, ["3"], .call 3⟩, ⟨2, [], .mouseClick .left⟩, ⟨3, [], .stop⟩], 3⟩ := by
    with_unfolding_all rfl
  have hforward : Script.JumpsForward
      ⟨[⟨1, ["3"], .call 3⟩, ⟨2, [], .mouseClick .left⟩, ⟨3, [], .stop⟩], 3⟩ := by
    simp [Script.JumpsForward]
  refine ⟨_, hcompile, hforward, ?_, by decide +kernel⟩
  obtain ⟨part, ending, -, -, -, -, hends⟩ :=
    forward_run_ends hcompile (e := Engine.new .zero Surroundings.plain) rfl (.ofMillis 20) []
  obtain ⟨rounds, more, time, outcome, hrun, hcalls, hpassed⟩ := hends hforward
  refine ⟨rounds, part ++ more, time, outcome, hrun, ?_, hpassed⟩
  intro hruns
  exact (hcalls hruns).trans (Nat.zero_add _)

end Engine

end InputScript
