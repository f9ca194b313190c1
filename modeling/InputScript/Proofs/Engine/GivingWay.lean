import InputScript.Proofs.Engine.Termination

/-!
# `InputScript.Proofs.Engine.GivingWay`: how much begins before the worker gives way

A script may jump for ever without a pause, and then its run never ends. Yet no stretch of the
worker is long. Within a stretch each instruction is behind the one before it, since a jump ends the
stretch. So the instructions that begin in a stretch are some of those that are left of the script,
in order, and behind them the worker has taken a jump, sleeps for a time to come, or is through.
Nothing needs to be known of the commands for this, nor of how the worker came to be where it is.

What happens next is up to others. If they ask the run to stop, the next stretch ends it.

* `Worker.stretches_poll`: the instructions that begin in a stretch, and what it leads to.
* `Engine.poll_gives_way`: the same for an engine whose worker gets its turn.
* `Course.Active.poll_stop`: a stop between two stretches ends the run.
* `Engine.gives_way`: all of it in the run of a script that was compiled.
-/

set_option autoImplicit false

namespace InputScript

/-- A sleep that lasts is over at a time to come. -/
theorem Sleep.lt_of_lasting {timer : Timer} {cancelled : Bool} {span : Span} {now wake : Nat}
    (h : Sleep.begin timer cancelled span now = .lasting wake) : now < wake := by
  have hsleep := Sleep.begins timer cancelled span now
  rw [h] at hsleep
  cases hsleep with
  | lasts hgoes hlong =>
    have hwait : timer.wait span ≠ 0 := by simp [timer.wait_eq_zero_iff, hlong]
    omega

/-- Whether a worker has given way at a time: it has taken a jump, or it sleeps for a time to
come. -/
inductive Phase.GivesWay (now : Nat) : Phase → Prop where
  | jumped (line : Nat) : GivesWay now (.afterJump line)
  | sleeps (phase : Phase) (wake : Nat) (hwake : phase.wake? = some wake) (hlater : now < wake) :
      GivesWay now phase

/-- A stop cuts the sleep of a worker short that has given way. -/
theorem Phase.GivesWay.isCut {phase : Phase} {s : Stage} (h : phase.GivesWay s.now)
    (env : Surroundings) : phase.IsCut env s := by
  refine .inr ?_
  intro wake hwake
  cases h with
  | jumped line => cases hwake
  | sleeps phase wake' hwake' hlater =>
    obtain rfl : wake' = wake := Option.some.inj (hwake'.symm.trans hwake)
    exact hlater

/-- Whether a worker that is not through has given way. -/
def Progress.GivesWay (now : Nat) : Progress → Prop
  | .suspended phase => phase.GivesWay now
  | _ => True

/-- Whether events are those of a stretch in which a script goes only ahead. -/
structure Script.GoesAhead (script : Script) (new : List (Nat × Event)) : Prop where
  /-- The instructions have begun at increasing indices. -/
  increasing : (script.path new).Pairwise (· < ·)
  inside : ∀ index ∈ script.path new, index < script.length
  /-- There are no more of them than the script has. -/
  length_le : (script.path new).length ≤ script.length
  /-- The indices are those of the instructions that have begun. -/
  begun : (script.path new).map (fun index =>
    (script.instructions[index]?).map fun i => (i.line, i.name)) =
      (new.filterMap fun entry => entry.2.begun?).map some

/-! ### A stretch -/

/-- A program falls asleep only until a time to come. -/
theorem Program.lt_of_asleep {env : Surroundings} {p : Program} {s s' : Stage} {wake : Nat}
    {rest : Bool → Program} (hrun : p.run env s = (s', .asleep wake rest)) : s'.now < wake := by
  induction p generalizing s with
  | done | fail | crash => cases hrun
  | call effect next failed ih ihFailed =>
    rw [Program.run] at hrun
    split at hrun
    · exact ih hrun
    · exact ihFailed _ hrun
    · cases hrun
  | pause span next ih =>
    rw [Program.run] at hrun
    split at hrun
    · exact ih _ hrun
    · rename_i hlasting
      cases hrun
      exact Sleep.lt_of_lasting hlasting
  | stopping next ih => exact ih s.cancelled hrun
  | jump line next ih | stop next ih => exact ih hrun
  | choose low high next ih => exact ih _ hrun

namespace Worker

/-- What a stretch that was to run some instructions has made of a stage: it has begun the first few
of them in order, and then the worker has given way or is through. -/
def Stretches (is : List Instruction) (s : Stage) (result : Stage × Progress) : Prop :=
  result.2.GivesWay result.1.now ∧ ∃ new,
    result.1.history.reverse = s.history.reverse ++ new ∧
      (new.filterMap fun entry => entry.2.begun?) <+: is.map fun i => (i.line, i.name)

variable {env : Surroundings} {is : List Instruction} {s s' : Stage} {result : Stage × Progress}
  {progress : Progress}

/-- A stretch may be over before anything happens. -/
theorem stretches_refl (is : List Instruction) (s : Stage) (hway : progress.GivesWay s.now) :
    Stretches is s (s, progress) :=
  ⟨hway, [], by simp⟩

/-- Events with which no instruction begins do not count. -/
theorem Stretches.of_quiet {quiet : List (Nat × Event)} (h : Stretches is s' result)
    (hnew : s'.history.reverse = s.history.reverse ++ quiet)
    (hquiet : ∀ entry ∈ quiet, entry.2.begun? = none) : Stretches is s result := by
  obtain ⟨hway, new, hhistory, hbegun⟩ := h
  refine ⟨hway, quiet ++ new, ?_, ?_⟩
  · rw [hhistory, hnew, List.append_assoc]
  · rw [List.filterMap_append, List.filterMap_eq_nil_iff.mpr hquiet]
    exact hbegun

/-- The first instruction begins, and the others come behind it. -/
theorem Stretches.begin {index : Nat} {i : Instruction}
    (h : Stretches is (s.beginInstruction index i) result) : Stretches (i :: is) s result := by
  obtain ⟨hway, new, hhistory, hbegun⟩ := h
  refine ⟨hway, (s.now, .executing i.line i.name) :: new, ?_, ?_⟩
  · have hbegin : (s.beginInstruction index i).history.reverse =
        s.history.reverse ++ [(s.now, .executing i.line i.name)] := List.reverse_cons
    rw [hhistory, hbegin, List.append_assoc]
    rfl
  · show (i.line, i.name) :: new.filterMap (fun entry => entry.2.begun?) <+: _
    exact (List.prefix_cons_inj _).mpr hbegun

section Parts

variable {goOn : Stage → Stage × Progress} (hgoOn : ∀ s, Stretches is s (goOn s))

include hgoOn

/-- The line delay is no stretch of its own if it is skipped. -/
theorem stretches_delayLine (timer : Timer) (delay : Span) (next : Nat) (s : Stage) :
    Stretches is s (delayLine timer delay next goOn s) := by
  rw [delayLine]
  split
  · exact hgoOn s
  · exact stretches_refl is s trivial
  · rename_i wake hlasting
    exact stretches_refl is s (.sleeps _ wake rfl (Sleep.lt_of_lasting hlasting))

/-- A jump ends the stretch, and without one the instructions behind follow. -/
theorem stretches_settle (timer : Timer) (delay : Span) (index : Nat) (i : Instruction)
    (isLast : Bool) {halt : Halt}
    (hhalt : ∀ wake rest, halt = .asleep wake rest → s.now < wake) :
    Stretches is s (settle timer delay index i isLast goOn s halt) := by
  cases halt with
  | asleep wake rest =>
    exact stretches_refl is s (.sleeps _ wake rfl (hhalt wake rest rfl))
  | failed cause => exact stretches_refl is s trivial
  | crashed => exact stretches_refl is s trivial
  | returned =>
    rw [settle]
    split
    · rename_i target _
      have hjumped : Stretches is (s.record (.jumped i.line target))
          (s.record (.jumped i.line target), .suspended (.afterJump target)) :=
        stretches_refl is _ (.jumped target)
      have hquiet : ∀ entry ∈ [(s.now, Event.jumped i.line target)], entry.2.begun? = none := by
        simp [Event.begun?]
      exact hjumped.of_quiet List.reverse_cons hquiet
    · exact stretches_refl is s trivial
    · split
      · exact hgoOn s
      · exact stretches_delayLine hgoOn timer delay (index + 1) s

variable (env) in
/-- What is left of an instruction begins none, and the instructions behind follow. -/
theorem stretches_program (p : Program) (s : Stage) (delay : Span) (index : Nat) (i : Instruction)
    (isLast : Bool) :
    Stretches is s
      (settle env.timer delay index i isLast goOn (p.run env s).1 (p.run env s).2) := by
  obtain ⟨⟨s', halt⟩, hrun⟩ : ∃ result, p.run env s = result := ⟨_, rfl⟩
  rw [hrun]
  obtain ⟨quiet, hnew, hquiet⟩ := Program.run_begins_nothing hrun
  have hsettle : Stretches is s' (settle env.timer delay index i isLast goOn s' halt) := by
    refine stretches_settle hgoOn env.timer delay index i isLast ?_
    intro wake rest hasleep
    rw [hasleep] at hrun
    exact Program.lt_of_asleep hrun
  exact hsettle.of_quiet hnew hquiet

end Parts

variable (env)

/-- Running instructions begins the first few of them. -/
theorem stretches_runFrom (delay : Span) (index : Nat) (is : List Instruction) (s : Stage) :
    Stretches is s (runFrom env delay index is s) := by
  induction is generalizing index s with
  | nil => exact stretches_refl [] s trivial
  | cons i rest ih =>
    rw [runFrom]
    split
    · exact stretches_refl (i :: rest) s trivial
    · exact (stretches_program env (ih (index + 1)) i.command.program (s.beginInstruction index i)
        delay index i rest.isEmpty).begin

/-- Wherever a worker stands, a stretch begins the first few of the instructions from some index
on. -/
theorem stretches_poll (w : Worker) (startDelay : Span) (s : Stage) : ∃ first,
    Stretches (w.script.instructions.drop first) s (w.poll env startDelay s) := by
  have hcontinue (index : Nat) (s : Stage) :
      Stretches (w.script.instructions.drop index) s (w.continueAt env index s) :=
    stretches_runFrom env w.lineDelay index _ s
  rw [poll]
  cases w.phase with
  | fresh =>
    refine ⟨0, ?_⟩
    dsimp only
    split
    · exact hcontinue 0 s
    · exact stretches_refl _ s trivial
    · rename_i wake hlasting
      exact stretches_refl _ s (.sleeps _ wake rfl (Sleep.lt_of_lasting hlasting))
  | beforeStart wake =>
    refine ⟨0, ?_⟩
    dsimp only
    split
    · exact stretches_refl _ s trivial
    · exact hcontinue 0 s
  | inCommand index wake rest =>
    dsimp only
    rw [resume]
    split
    · exact ⟨index, hcontinue index s⟩
    · -- The instruction in progress has begun before, so those behind it come next.
      refine ⟨index + 1, ?_⟩
      exact stretches_program env (hcontinue (index + 1)) _ s w.lineDelay index _ _
  | afterJump line =>
    refine ⟨w.script.indexForLine line, ?_⟩
    dsimp only
    split
    · exact stretches_delayLine (hcontinue _) env.timer w.lineDelay _ s
    · exact hcontinue _ s
  | betweenLines wake next =>
    refine ⟨next, ?_⟩
    dsimp only
    split
    · exact stretches_refl _ s trivial
    · exact hcontinue next s

end Worker

/-! ### The indices of a stretch -/

namespace Script

variable {script : Script} {first : Nat} {new : List (Nat × Event)}

/-- Instructions in order lie at one index after the other. -/
theorem map_indexForLine_drop
    (hsorted : script.instructions.Pairwise fun a b => a.line < b.line) (first : Nat) :
    (script.instructions.drop first).map (fun i => script.indexForLine i.line) =
      List.range' first (script.length - first) := by
  apply List.ext_getElem
  · simp [length]
  · intro k hleft hright
    have hk : first + k < script.instructions.length := by
      simp only [List.length_map, List.length_drop] at hleft
      omega
    have hindex := indexForLine_line hsorted (List.getElem?_eq_getElem hk)
    simpa using hindex

/-- Where the instructions that have begun are the first few from an index on, the script has gone
only ahead. -/
theorem goesAhead_of_prefix (hsorted : script.instructions.Pairwise fun a b => a.line < b.line)
    (h : (new.filterMap fun entry => entry.2.begun?) <+:
      (script.instructions.drop first).map fun i => (i.line, i.name)) : script.GoesAhead new := by
  have hpath : script.path new <+: List.range' first (script.length - first) := by
    rw [← map_indexForLine_drop hsorted first]
    have hmap := h.map fun begun => script.indexForLine begun.1
    rwa [List.map_map] at hmap
  refine ⟨?_, ?_, ?_, ?_⟩
  · exact List.Pairwise.sublist hpath.sublist List.pairwise_lt_range'
  · intro index hindex
    have hrange := List.mem_range'_1.mp (hpath.subset hindex)
    omega
  · have hlength := hpath.length_le
    rw [List.length_range'] at hlength
    omega
  · rw [path, List.map_map]
    apply List.map_congr_left
    intro begun hbegun
    obtain ⟨i, hi, rfl⟩ := List.mem_map.mp (h.subset hbegun)
    obtain ⟨index, hindex⟩ := List.mem_iff_getElem?.mp (List.mem_of_mem_drop hi)
    show (script.instructions[script.indexForLine i.line]?).map _ = _
    rw [indexForLine_line hsorted hindex, hindex]
    rfl

end Script

/-! ### A run -/

namespace Engine

/-- A report begins no instruction. -/
theorem begun?_report (e : Engine) (now : Nat) (outcome : Outcome) :
    ∀ entry ∈ (now, .ended outcome) :: e.announcement now outcome, entry.2.begun? = none := by
  intro entry hentry
  rcases List.mem_cons.mp hentry with rfl | hentry
  · rfl
  · rw [announcement] at hentry
    split at hentry
    · cases hentry
    · rw [List.mem_singleton.mp hentry]
      rfl

/-- Where a stretch of the worker leads: the instructions that have begun in it go only ahead, and
behind them the run has ended or the worker has given way. -/
theorem poll_gives_way {e : Engine} {w : Worker} (hw : e.worker = some w)
    (hsorted : w.script.instructions.Pairwise fun a b => a.line < b.line) :
    ∃ new, e.poll.events = e.events ++ new ∧ w.script.GoesAhead new ∧
      (e.poll.running = false ∨
        ∃ stage phase, e.poll = e.suspend stage { w with phase := phase } ∧
          phase.GivesWay stage.now) := by
  by_cases hready : e.isReady = true
  · obtain ⟨w', stage, progress, _, hs, hpoll⟩ := exists_stretched hready
    obtain rfl : w = w' := Option.some.inj (hw.symm.trans hs.worker)
    obtain ⟨first, hway, new, hnew, hbegun⟩ :=
      Worker.stretches_poll e.surroundings w e.startDelay e.stage
    rw [hs.poll] at hway hnew
    have hahead : w.script.GoesAhead new := Script.goesAhead_of_prefix hsorted hbegun
    have hclose (reported told : Outcome) :
        (e.close stage reported told).events = e.events ++ (new ++
          (stage.now, .ended reported) :: e.announcement stage.now reported) := by
      rw [events_close, hnew, List.append_assoc]
      rfl
    have hreport (outcome : Outcome) : w.script.GoesAhead
        (new ++ (stage.now, .ended outcome) :: e.announcement stage.now outcome) := by
      apply Script.goesAhead_of_prefix hsorted
      rw [List.filterMap_append, List.filterMap_eq_nil_iff.mpr (e.begun?_report _ outcome),
        List.append_nil]
      exact hbegun
    rw [hpoll]
    cases progress with
    | suspended phase => exact ⟨new, hnew, hahead, .inr ⟨stage, phase, rfl, hway⟩⟩
    | ended outcome =>
      exact ⟨_, hclose outcome outcome, hreport outcome, .inl (running_close e stage _ _)⟩
    | crashed =>
      exact ⟨_, hclose .crashed _, hreport .crashed, .inl (running_close e stage _ _)⟩
  · -- The worker waits, so it has given way before.
    have hwaits : e.isReady = false := by simpa using hready
    have hnothing : w.script.GoesAhead [] := by
      constructor <;> simp [Script.path]
    rw [poll_of_waits hwaits]
    have hsame : e = e.suspend e.stage w := by rw [suspend, ← hw]
    refine ⟨[], (List.append_nil _).symm, hnothing, .inr ⟨e.stage, w.phase, hsame, ?_⟩⟩
    cases hwake : w.phase.wake? with
    | none => simp [isReady, hw, Phase.isReady, hwake] at hwaits
    | some wake =>
      refine .sleeps _ wake hwake (now_lt_of_wake hwaits ?_)
      rw [wake?, hw, Option.bind_some, hwake]

end Engine

namespace Course

variable {r : Course} {started e : Engine} {phase : Phase}

/-- A run whose worker is suspended again is still active. -/
theorem Active.poll_suspend (h : r.Active started phase e) {stage : Stage} {phase' : Phase}
    (hpoll : e.poll = e.suspend stage (r.worker phase')) : r.Active started phase' e.poll := by
  have hgoes : r.Goes started e.poll := (lasting_goes started).poll e (.inl ⟨phase, h⟩)
  have hworker : e.poll.worker = some (r.worker phase') := by
    rw [hpoll]
    rfl
  rcases hgoes with ⟨phase'', hactive⟩ | ⟨s, outcome, hended⟩
  · have hsame : r.worker phase'' = r.worker phase' :=
      Option.some.inj (hactive.worker.symm.trans hworker)
    obtain rfl : phase'' = phase' := congrArg Worker.phase hsame
    exact hactive
  · -- No run has begun meanwhile, and this one has its worker.
    have hruns : e.poll.runs = started.runs := by
      rw [hpoll]
      exact h.runs
    rcases hended.since with hmore | ⟨hnone, -⟩
    · omega
    · rw [hworker] at hnone
      cases hnone

/-- A stop of an active run of built-in commands that cuts the sleep of its worker short ends it in
the next stretch, in which nothing else happens. -/
theorem Active.poll_stop (hscript : r.script.IsBuiltin) (h : r.Active started phase e)
    (hcut : phase.IsCut e.surroundings e.stage) :
    e.stop.poll = e.stop.close e.stop.stage .stopped .stopped := by
  have hfits : phase.Fits r.script e.stage := (Reaches.fits hscript h.reaches).point
  have hover : (r.worker phase).poll e.surroundings e.startDelay e.stage.requestStop =
      (e.stage.requestStop, .ended .stopped) :=
    Worker.poll_of_cancelled _ _ (Engine.fits_of_eq (s := e.stage) rfl rfl hfits) rfl hcut
  have hready : e.stop.isReady = true := by
    rw [Engine.stop_of_running h.running, Engine.isReady, h.worker]
    exact Engine.isReady_of_cancelled phase _
  have hworker : e.stop.worker = some (r.worker phase) := by
    rw [Engine.stop_of_running h.running]
    exact h.worker
  rw [Engine.poll_of_ready hworker hready, Engine.stop_of_running h.running, hover]
  rfl

/-- So the stop is the last event of the run. -/
theorem Active.runSoFar_stop (hscript : r.script.IsBuiltin) (h : r.Active started phase e)
    (hcut : phase.IsCut e.surroundings e.stage) {part : List (Nat × Event)}
    (hrun : RunSoFar started e part none) :
    RunSoFar started e.stop.poll (part ++ [(e.stage.now, .stopRequested)])
      (some (e.stage.now, .stopped)) := by
  refine ⟨?_, e.announcement e.stage.now .stopped, ?_⟩
  · rw [List.forall_mem_append, List.forall_mem_singleton]
    exact ⟨hrun.quiet, rfl⟩
  · have hevents : e.stop.events = e.events ++ [(e.stage.now, .stopRequested)] := by
      rw [Engine.stop_of_running h.running]
      exact List.reverse_cons
    rw [h.poll_stop hscript hcut, Engine.events_close]
    show e.stop.events ++ _ = _
    rw [hevents, hrun.events.2, Engine.stop_of_running h.running]
    simp only [List.append_assoc]
    rfl

end Course

namespace Engine

/-- What is to be said of the next stretch of a run: `started` is the engine in which the run began,
`after` the engine before the stretch, `part` are the events of the run so far and `new` those of
the stretch. -/
structure GivesWay (script : Script) (started after : Engine) (part new : List (Nat × Event)) :
    Prop where
  events : after.poll.events = after.events ++ new
  ahead : script.GoesAhead new
  /-- The run has ended, or its worker has given way, and then a stop is all that is still to come
  if the run is asked for it. -/
  rests : after.poll.isRunning = false ∨
    (∃ w, after.poll.worker = some w ∧ w.phase.GivesWay after.poll.stage.now) ∧
    RunSoFar started after.poll.stop.poll
      (part ++ new ++ [(after.poll.stage.now, .stopRequested)])
      (some (after.poll.stage.now, .stopped))

/-- A worker always gives way. A script was compiled and its run is active, whatever was done with
the engine since it began. In the next stretch at most as many instructions begin as the script has,
at increasing indices. Then the run has ended, or the worker has taken a jump or sleeps for a time
to come. If the run is asked to stop there, the stretch after that ends it without anything else. -/
theorem gives_way {lines : List String} {script : Script}
    (hcompile : Catalog.builtin.compile lines = .ok script) {e : Engine}
    (hidle : e.isRunning = false) (lineDelay : Span) (ops : List Operation) :
    let started := (e.start script lineDelay).1
    let after := started.performAll ops
    ∃ part ending, RunSoFar started after part ending ∧
      (ending = none → ∃ new, GivesWay script started after part new) := by
  intro started after
  have hcompiled : script.IsCompiled := ⟨lines, hcompile⟩
  have hlaunched : (e.courseOf script lineDelay).Active started .fresh started := by
    show Course.Active _ (e.start script lineDelay).1 .fresh (e.start script lineDelay).1
    rw [start_of_idle hidle]
    exact e.active_launch script lineDelay
  have hgoes : (e.courseOf script lineDelay).Goes started after :=
    (Course.lasting_goes started).performAll (fun _ _ => trivial) (.inl ⟨_, hlaunched⟩)
  rcases hgoes with ⟨phase, hactive⟩ | ⟨s, outcome, hended⟩
  · obtain ⟨part, hseen⟩ := hactive.seen
    refine ⟨part, none, hseen.runSoFar, fun _ => ?_⟩
    obtain ⟨new, hnew, hahead, hrest⟩ := poll_gives_way hactive.worker hcompiled.sorted
    refine ⟨new, hnew, hahead, ?_⟩
    rcases hrest with hover | ⟨stage, phase', hpoll, hway⟩
    · exact .inl hover
    · have hlater := hactive.poll_suspend hpoll
      have hnow : after.poll.stage.now = stage.now := congrArg (·.stage.now) hpoll
      have hrun : RunSoFar started after.poll (part ++ new) none := by
        obtain ⟨part', hseen'⟩ := hlater.seen
        obtain ⟨more, rfl, hmore⟩ := hseen.runSoFar.extends hseen'.runSoFar hnew
        rw [← hmore rfl]
        exact hseen'.runSoFar
      have hway' : phase'.GivesWay after.poll.stage.now := hnow ▸ hway
      exact .inr ⟨⟨_, hlater.worker, hway'⟩,
        hlater.runSoFar_stop hcompiled.isBuiltin (hway'.isCut _) hrun⟩
  · -- The run has ended, and there is no next stretch of it.
    obtain ⟨part, hseen⟩ := hended.seen
    exact ⟨part, _, hseen.runSoFar, by simp [Course.State.ending?]⟩

/-- Two jumps without a delay, the first onto a blank line and the second back: in the third stretch
one instruction begins, and a stop behind it ends the run, all at the time of the start. -/
theorem gives_way_between_jumps : ∃ script,
    Catalog.builtin.compile ["Call 2", "", "MouseClick", "Call 1"] = .ok script ∧
      (let started := ((Engine.new .zero Surroundings.plain).start script .zero).1
       let after := started.performAll [.yield 2]
       (∃ part ending, RunSoFar started after part ending ∧
          (ending = none → ∃ new, GivesWay script started after part new)) ∧
        after.isRunning = true ∧
        after.poll.stop.poll.events = after.events ++ [(0, .executing 1 "Call"), (0, .jumped 1 2),
          (0, .stopRequested), (0, .ended .stopped)]) := by
  have hcompile : Catalog.builtin.compile ["Call 2", "", "MouseClick", "Call 1"] =
      .ok ⟨[⟨1, ["2"], .call 2⟩, ⟨3, [], .mouseClick .left⟩, ⟨4, ["1"], .call 1⟩], 4⟩ := by
    with_unfolding_all rfl
  exact ⟨_, hcompile, gives_way hcompile rfl .zero [.yield 2], by decide +kernel,
    by decide +kernel⟩

end Engine

end InputScript
