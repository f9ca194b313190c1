import InputScript.Proofs.Engine.Termination

/-!
# `InputScript.Proofs.Engine.Execution`: what a run does when nothing interrupts it

What a script does can be said without an engine: it begins with the first instruction, performs
the effects of each, and goes on where the instruction says, up to a stop or past the last
instruction (`Script.Executes`). Delays and chance decide when something happens, and not what, so
a script has one execution at most.

A run of built-in commands on a device that performs every effect executes its script, as long as
nobody asks for a stop. In particular it never fails.

* `Script.Executes.unique`: a script executes in one way.
* `Command.performs_program`: the program of a command performs the effects of the command.
* `Course.Executing.work`: with every step of its worker a run executes its script.
* `Engine.executes`: so does a run, whatever is done meanwhile but for a stop.
* `Engine.executed_in_time`: a script that comes to an end is executed up to there.
-/

set_option autoImplicit false

namespace InputScript

/-! ### The execution of a script -/

/-- The effect of an action, if it has one. -/
def Action.effect? : Action → Option Effect
  | .perform effect => some effect
  | .sleep _ => none

/-- The effects of a command whose pauses are not cut short. -/
def Command.effects (c : Command) : List Effect :=
  c.actions.filterMap Action.effect?

/-- What a script does from the instruction at an index on, and how it ends. -/
inductive Script.Executes (script : Script) : Nat → List Event → Outcome → Prop where
  /-- No instruction is left. -/
  | complete (index : Nat) (hnone : script.instructions[index]? = none) :
      Executes script index [] .completed
  | stop (index : Nat) (i : Instruction) (hi : script.instructions[index]? = some i)
      (hstop : i.command = .stop) :
      Executes script index [.executing i.line i.name] .stopped
  /-- A jump leads to the first instruction at or after its target. -/
  | jump (index : Nat) (i : Instruction) (target : Int) (rest : List Event) (outcome : Outcome)
      (hi : script.instructions[index]? = some i) (hcall : i.command = .call target)
      (hforward : 0 < target)
      (h : Executes script (script.indexForLine target.toNat) rest outcome) :
      Executes script index
        (.executing i.line i.name :: .jumped i.line target.toNat :: rest) outcome
  /-- Any other instruction leads to the one behind it. -/
  | pass (index : Nat) (i : Instruction) (rest : List Event) (outcome : Outcome)
      (hi : script.instructions[index]? = some i) (hpass : ¬ i.command.Directs)
      (h : Executes script (index + 1) rest outcome) :
      Executes script index
        (.executing i.line i.name :: (i.command.effects.map .performed ++ rest)) outcome

namespace Script

variable {script : Script}

/-- Behind a jump the execution goes on where the jump leads. -/
theorem executes_jump_iff {index : Nat} {i : Instruction} {target : Int}
    (hi : script.instructions[index]? = some i) (hcall : i.command = .call target)
    (hforward : 0 < target) {events : List Event} {outcome : Outcome} :
    script.Executes index events outcome ↔
      ∃ rest, events = .executing i.line i.name :: .jumped i.line target.toNat :: rest ∧
        script.Executes (script.indexForLine target.toNat) rest outcome := by
  constructor
  · intro h
    cases h with
    | jump _ i' target' rest _ hi' hcall' _ h =>
      obtain rfl : i = i' := Option.some.inj (hi.symm.trans hi')
      obtain rfl : target = target' := by simpa [hcall] using hcall'
      exact ⟨rest, rfl, h⟩
    | complete _ hnone => simp [hi] at hnone
    | stop | pass => simp_all [Command.Directs]
  · rintro ⟨rest, rfl, h⟩
    exact .jump index i target rest outcome hi hcall hforward h

/-- Behind an instruction that does not direct the run the execution goes on with the next one. -/
theorem executes_pass_iff {index : Nat} {i : Instruction}
    (hi : script.instructions[index]? = some i) (hpass : ¬ i.command.Directs)
    {events : List Event} {outcome : Outcome} :
    script.Executes index events outcome ↔
      ∃ rest, events = .executing i.line i.name :: (i.command.effects.map .performed ++ rest) ∧
        script.Executes (index + 1) rest outcome := by
  constructor
  · intro h
    cases h with
    | pass _ i' rest _ hi' _ h =>
      obtain rfl : i = i' := Option.some.inj (hi.symm.trans hi')
      exact ⟨rest, rfl, h⟩
    | complete _ hnone => simp [hi] at hnone
    | stop | jump => simp_all [Command.Directs]
  · rintro ⟨rest, rfl, h⟩
    exact .pass index i rest outcome hi hpass h

/-- A script executes in one way. -/
theorem Executes.unique {index : Nat} {events events' : List Event} {outcome outcome' : Outcome}
    (h : script.Executes index events outcome) (h' : script.Executes index events' outcome') :
    events = events' ∧ outcome = outcome' := by
  -- One instruction at most stands at the index, and its command is of one kind.
  induction h generalizing events' outcome' with
  | complete index hnone =>
    cases h' with
    | complete => exact ⟨rfl, rfl⟩
    | stop _ _ hi | jump _ _ _ _ _ hi | pass _ _ _ _ hi => simp [hnone] at hi
  | stop index i hi hstop =>
    cases h' with
    | stop _ i' hi' =>
      obtain rfl : i = i' := Option.some.inj (hi.symm.trans hi')
      exact ⟨rfl, rfl⟩
    | complete _ hnone => simp [hi] at hnone
    | jump | pass => simp_all [Command.Directs]
  | jump index i target rest outcome hi hcall hforward _ ih =>
    obtain ⟨rest', rfl, hrest⟩ := (executes_jump_iff hi hcall hforward).mp h'
    obtain ⟨rfl, rfl⟩ := ih hrest
    exact ⟨rfl, rfl⟩
  | pass index i rest outcome hi hpass _ ih =>
    obtain ⟨rest', rfl, hrest⟩ := (executes_pass_iff hi hpass).mp h'
    obtain ⟨rfl, rfl⟩ := ih hrest
    exact ⟨rfl, rfl⟩

/-- An execution never fails. -/
theorem Executes.outcome_eq {index : Nat} {events : List Event} {outcome : Outcome}
    (h : script.Executes index events outcome) : outcome = .completed ∨ outcome = .stopped := by
  induction h with
  | complete => exact .inl rfl
  | stop => exact .inr rfl
  | jump _ _ _ _ _ _ _ _ _ ih | pass _ _ _ _ _ _ _ ih => exact ih

end Script

/-! ### The effects of a program -/

/-- A program that performs effects, as long as its pauses last their full span. -/
inductive Program.Performs : Program → List Effect → Prop where
  | done : Performs .done []
  | perform {next : Program} {rest : List Effect} (effect : Effect) (h : Performs next rest) :
      Performs (.perform effect next) (effect :: rest)
  | pause {next : Bool → Program} {rest : List Effect} (span : Span)
      (h : Performs (next true) rest) : Performs (.pause span next) rest
  | choose {next : Nat → Program} {rest : List Effect} (low high : Nat)
      (h : ∀ n, Performs (next n) rest) : Performs (.choose low high next) rest

open Program (Performs Plays)

/-- A program that plays actions performs their effects. -/
theorem Program.Plays.performs {p : Program} {actions : List Action} (h : Plays p actions) :
    Performs p (actions.filterMap Action.effect?) := by
  induction h with
  | done => exact .done
  | perform effect _ ih => exact .perform effect ih
  | pause span _ ih => exact .pause span ih
  | skip _ _ ih => exact ih

/-- The program of a command performs the effects of the command, unless it directs the run. -/
theorem Command.performs_program {c : Command} (hbuiltin : c.IsBuiltin) (h : ¬ c.Directs) :
    Performs c.program c.effects := by
  by_cases hfixed : c.IsFixed
  · exact (plays_program hbuiltin hfixed h).performs
  · cases c with
    | wait min max =>
      -- A random pause has no effects, whatever number is drawn.
      have hchoice : ¬ max.nanos ≤ min.nanos := hfixed
      rw [program, pauseBetween, if_neg hchoice]
      exact .choose _ _ fun n => .pause _ .done
    | _ => exact absurd trivial hfixed

/-- A program that had effects to perform has come to a halt. Some effects are performed, and the
others are left to a program that sleeps. -/
structure HasPerformed (s : Stage) (done left : List Effect) (s' : Stage) (halt : Halt) : Prop where
  history : s'.history.reverse =
    s.history.reverse ++ done.map fun effect => (s.now, .performed effect)
  goes : s'.cancelled = false
  transfer : s'.transfer = s.transfer
  halt : (halt = .returned ∧ left = []) ∨
    ∃ wake rest, halt = .asleep wake rest ∧ Performs (rest true) left

/-- A program performs its effects on a device that performs every effect, up to a pause that
lasts. -/
theorem Program.Performs.run {env : Surroundings}
    (hdevice : ∀ call effect, env.device call effect = .done) {p : Program}
    {effects : List Effect} (h : Performs p effects) {s : Stage} (hgoes : s.cancelled = false) :
    ∃ done left, effects = done ++ left ∧
      HasPerformed s done left (p.run env s).1 (p.run env s).2 := by
  induction h generalizing s with
  | done => exact ⟨[], [], rfl, (List.append_nil _).symm, hgoes, rfl, .inl ⟨rfl, rfl⟩⟩
  | @perform next rest effect _ ih =>
    rw [Program.perform, Program.run_call_of_done (hdevice _ effect)]
    obtain ⟨done, left, hsplit, hperformed⟩ :=
      ih (s := { s with calls := s.calls + 1 }.record (.performed effect)) hgoes
    refine ⟨effect :: done, left, congrArg (effect :: ·) hsplit, ?_, hperformed.goes,
      hperformed.transfer, hperformed.halt⟩
    rw [hperformed.history]
    simp [Stage.record]
  | @pause next rest span hnext ih =>
    rw [Program.run]
    have hsleep := Sleep.begins env.timer s.cancelled span s.now
    generalize Sleep.begin env.timer s.cancelled span s.now = sleep at hsleep ⊢
    cases hsleep with
    | cut hcancelled =>
      rw [hgoes] at hcancelled
      cases hcancelled
    | skipped => exact ih hgoes
    | lasts =>
      exact ⟨[], rest, rfl, (List.append_nil _).symm, hgoes, rfl, .inr ⟨_, _, rfl, hnext⟩⟩
  | choose low high _ ih =>
    obtain ⟨done, left, hsplit, hperformed⟩ :=
      ih _ (s := { s with draws := s.draws + 1 }) hgoes
    exact ⟨done, left, hsplit, hperformed.history, hperformed.goes, hperformed.transfer,
      hperformed.halt⟩

/-! ### The work of a run -/

/-- What a run has done among events, without the times. -/
def workOf (events : List (Nat × Event)) : List Event :=
  (events.map Prod.snd).filter Event.isWork

theorem workOf_append (first second : List (Nat × Event)) :
    workOf (first ++ second) = workOf first ++ workOf second := by
  simp [workOf]

/-- One more event of the work. -/
theorem workOf_concat (part : List (Nat × Event)) (time : Nat) {event : Event}
    (h : event.isWork = true) : workOf (part ++ [(time, event)]) = workOf part ++ [event] := by
  rw [workOf_append]
  simp [workOf, h]

/-- Where there is nothing but work, all of it is work. -/
theorem workOf_eq {events : List (Nat × Event)} (h : ∀ entry ∈ events, entry.2.isWork = true) :
    workOf events = events.map Prod.snd := by
  rw [workOf, List.filter_eq_self]
  intro event hevent
  obtain ⟨entry, hentry, rfl⟩ := List.mem_map.mp hevent
  exact h entry hentry

/-- Effects at one time are work. -/
theorem workOf_performed (now : Nat) (effects : List Effect) :
    workOf (effects.map fun effect => (now, .performed effect)) = effects.map .performed := by
  simp [workOf, List.map_map, Function.comp_def, Event.isWork]

namespace Script

variable (script : Script) (events : List Event)

/-- The script comes to the instruction at an index when it has done some events: what it does on
the whole are these and then what it does from that instruction on. -/
def LeadsTo (index : Nat) : Prop :=
  ∀ whole outcome, script.Executes 0 whole outcome ↔
    ∃ rest, whole = events ++ rest ∧ script.Executes index rest outcome

/-- What is left to run of the instruction at an index takes the execution on. -/
inductive Continues (index : Nat) : Program → Prop where
  | perform {p : Program} (left : List Effect) (hp : Performs p left)
      (h : LeadsTo script (events ++ left.map .performed) (index + 1)) : Continues index p
  | jump (i : Instruction) (target : Nat) (hi : script.instructions[index]? = some i)
      (h : LeadsTo script (events ++ [.jumped i.line target]) (script.indexForLine target)) :
      Continues index (.jump target .done)
  | stop (h : script.Executes 0 events .stopped) : Continues index (.stop .done)

/-- From where a run stands that has done some events, the execution goes on. -/
def Follows : Point → Prop
  | .resting .fresh => script.LeadsTo events 0
  | .resting (.beforeStart _) => script.LeadsTo events 0
  | .resting (.inCommand index _ rest) => ∃ left, Performs (rest true) left ∧
      script.LeadsTo (events ++ left.map .performed) (index + 1)
  | .resting (.afterJump line) => script.LeadsTo events (script.indexForLine line)
  | .resting (.betweenLines _ next) => script.LeadsTo events next
  | .delaying next => script.LeadsTo events next
  | .before index => script.LeadsTo events index
  | .inside index p => script.Continues events index p
  | .ended _ => False

end Script

namespace Script

variable {script : Script} {events : List Event} {whole : List Event} {outcome : Outcome}

/-- Where the script leads from where it has come. -/
theorem LeadsTo.append {index next : Nat} (h : script.LeadsTo events index) (new : List Event)
    (hnext : ∀ rest outcome, script.Executes index rest outcome ↔
      ∃ later, rest = new ++ later ∧ script.Executes next later outcome) :
    script.LeadsTo (events ++ new) next := by
  intro whole outcome
  constructor
  · intro hwhole
    obtain ⟨rest, rfl, hrest⟩ := (h whole outcome).mp hwhole
    obtain ⟨later, rfl, hlater⟩ := (hnext rest outcome).mp hrest
    exact ⟨later, (List.append_assoc ..).symm, hlater⟩
  · rintro ⟨later, rfl, hlater⟩
    rw [List.append_assoc]
    exact (h _ outcome).mpr ⟨_, rfl, (hnext _ outcome).mpr ⟨later, rfl, hlater⟩⟩

/-- What has been done is the beginning of what is done on the whole. -/
theorem LeadsTo.isPrefix {index : Nat} (h : script.LeadsTo events index)
    (hwhole : script.Executes 0 whole outcome) : events <+: whole := by
  obtain ⟨rest, rfl, -⟩ := (h whole outcome).mp hwhole
  exact List.prefix_append events rest

/-- So it is from wherever the execution goes on. -/
theorem Follows.isPrefix {point : Point} (h : script.Follows events point)
    (hwhole : script.Executes 0 whole outcome) : events <+: whole := by
  cases point with
  | resting phase =>
    cases phase with
    | inCommand index wake rest =>
      obtain ⟨left, -, hleads⟩ := h
      exact (List.prefix_append _ _).trans (hleads.isPrefix hwhole)
    | fresh | beforeStart | afterJump | betweenLines => exact LeadsTo.isPrefix h hwhole
  | delaying | before => exact LeadsTo.isPrefix h hwhole
  | inside index p =>
    cases h with
    | perform left _ hleads => exact (List.prefix_append _ _).trans (hleads.isPrefix hwhole)
    | jump _ _ _ hleads => exact (List.prefix_append _ _).trans (hleads.isPrefix hwhole)
    | stop hexecutes =>
      obtain ⟨rfl, -⟩ := hexecutes.unique hwhole
      exact List.prefix_refl _
  | ended => exact h.elim

end Script

namespace Course

variable (r : Course) (earlier : List (Nat × Event))

/-- A run executes its script: it goes on where the execution does, or has ended as the execution
has. -/
inductive Executing : State → Prop where
  | goes (s : Stage) (point : Point) (part : List (Nat × Event))
      (hhistory : s.history.reverse = earlier ++ part) (hgoes : s.cancelled = false)
      (h : r.script.Follows (workOf part) point) : Executing ⟨s, point⟩
  | ended (s : Stage) (outcome : Outcome) (part : List (Nat × Event))
      (hhistory : s.history.reverse = earlier ++ part)
      (h : r.script.Executes 0 (workOf part) outcome) : Executing ⟨s, .ended outcome⟩

variable {r earlier} {s s' : Stage} {part : List (Nat × Event)} {state state' : State}

/-- The instruction at an index begins, and all of its program is left. -/
theorem Executing.begin {index : Nat} {i : Instruction}
    (hhistory : s.history.reverse = earlier ++ part) (hgoes : s.cancelled = false)
    (h : r.script.LeadsTo (workOf part) index) (hi : r.script.instructions[index]? = some i)
    (hbuiltin : i.command.IsBuiltin) :
    r.Executing earlier ⟨s.beginInstruction index i, .inside index i.command.program⟩ := by
  refine .goes _ _ _ (Stage.added_record hhistory (.executing i.line i.name)) hgoes ?_
  rw [workOf_concat part s.now rfl]
  by_cases hdirects : i.command.Directs
  · cases hcommand : i.command with
    | call target =>
      have hforward : 0 < target := by rwa [hcommand] at hdirects
      rw [Command.program_of_forward hforward]
      refine .jump i target.toNat hi ?_
      rw [List.append_assoc]
      exact h.append _ fun _ _ => Script.executes_jump_iff hi hcommand hforward
    | stop => exact .stop ((h _ _).mpr ⟨_, rfl, .stop index i hi hcommand⟩)
    | _ =>
      rw [hcommand] at hdirects
      exact hdirects.elim
  · refine .perform _ (Command.performs_program hbuiltin hdirects) ?_
    rw [List.append_assoc]
    exact h.append _ fun _ _ => Script.executes_pass_iff hi hdirects

section Inside

variable {index : Nat} {p : Program} {i : Instruction} {target : Nat} {effects : List Effect}

/-- A program that performs effects does some of them now, and the others after its pause. -/
theorem Executing.performs (hdevice : ∀ call effect, r.env.device call effect = .done)
    (hhistory : s.history.reverse = earlier ++ part) (hgoes : s.cancelled = false)
    (hnone : s.transfer = none) (hp : Performs p effects)
    (hleads : r.script.LeadsTo (workOf part ++ effects.map .performed) (index + 1))
    (hwork : r.Work ⟨s, .inside index p⟩ state') : r.Executing earlier state' := by
  obtain ⟨done, left, rfl, hperformed⟩ := hp.run hdevice hgoes
  -- What is performed by now is part of the work, and the rest is left.
  have hpart : workOf (part ++ done.map fun effect => (s.now, .performed effect)) =
      workOf part ++ done.map .performed := by
    rw [workOf_append, workOf_performed]
  have hleft : r.script.LeadsTo (workOf (part ++ done.map fun effect =>
      (s.now, .performed effect)) ++ left.map .performed) (index + 1) := by
    rw [hpart, List.append_assoc, ← List.map_append]
    exact hleads
  have hadded {s' : Stage} {halt : Halt} (h : HasPerformed s done left s' halt) :
      s'.history.reverse = earlier ++ (part ++ done.map fun effect =>
        (s.now, .performed effect)) := by
    rw [h.history, hhistory, List.append_assoc]
  cases hwork with
  | pause s s' index i p wake rest hi hrun =>
    rw [hrun] at hperformed
    obtain ⟨hhalt, -⟩ | ⟨wake', rest', hhalt, hrest⟩ := hperformed.halt
    · cases hhalt
    · cases hhalt
      exact .goes _ _ _ (hadded hperformed) hperformed.goes ⟨left, hrest, hleft⟩
  | fail s s' index i p cause hi hrun | crash s s' index i p hi hrun =>
    rw [hrun] at hperformed
    obtain ⟨hhalt, -⟩ | ⟨wake, rest, hhalt, -⟩ := hperformed.halt
    · cases hhalt
    · cases hhalt
  | jump s s' index i p target hi hrun htransfer
  | stop s s' index i p hi hrun htransfer =>
    -- No transfer was asked for.
    have hkept := hperformed.transfer
    rw [hrun] at hkept
    rw [htransfer, hnone] at hkept
    cases hkept
  | pass s s' index i p hi hrun | passLast s s' index i p hi hrun =>
    rw [hrun] at hperformed
    obtain ⟨-, rfl⟩ | ⟨wake, rest, hhalt, -⟩ := hperformed.halt
    · rw [List.map_nil, List.append_nil] at hleft
      exact .goes _ _ _ (hadded hperformed) hperformed.goes hleft
    · cases hhalt

/-- A jump leads to the instruction at the index for its line. -/
theorem Executing.jumps (hhistory : s.history.reverse = earlier ++ part)
    (hgoes : s.cancelled = false) (hi : r.script.instructions[index]? = some i)
    (hleads : r.script.LeadsTo (workOf part ++ [.jumped i.line target])
      (r.script.indexForLine target))
    (hwork : r.Work ⟨s, .inside index (.jump target .done)⟩ state') :
    r.Executing earlier state' := by
  cases hwork with
  | pause _ _ _ _ _ _ _ _ hrun | fail _ _ _ _ _ _ _ hrun | crash _ _ _ _ _ _ hrun =>
    cases hrun
  | stop _ _ _ _ _ _ hrun htransfer | pass _ _ _ _ _ _ hrun htransfer
  | passLast _ _ _ _ _ _ hrun htransfer =>
    cases hrun
    cases htransfer
  | jump s s' index i' p target' hi' hrun htransfer =>
    cases hrun
    cases htransfer
    obtain rfl : i = i' := Option.some.inj (hi.symm.trans hi')
    refine .goes _ _ _ (Stage.added_record hhistory (.jumped i.line target)) hgoes ?_
    show r.script.LeadsTo _ _
    rw [workOf_concat part s.now rfl]
    exact hleads

/-- A stop ends the execution. -/
theorem Executing.stops (hhistory : s.history.reverse = earlier ++ part)
    (hexecutes : r.script.Executes 0 (workOf part) .stopped)
    (hwork : r.Work ⟨s, .inside index (.stop .done)⟩ state') : r.Executing earlier state' := by
  cases hwork with
  | pause _ _ _ _ _ _ _ _ hrun | fail _ _ _ _ _ _ _ hrun | crash _ _ _ _ _ _ hrun =>
    cases hrun
  | jump _ _ _ _ _ _ _ hrun htransfer | pass _ _ _ _ _ _ hrun htransfer
  | passLast _ _ _ _ _ _ hrun htransfer =>
    cases hrun
    cases htransfer
  | stop s s' index i p hi hrun =>
    cases hrun
    exact .ended _ _ part hhistory hexecutes

/-- Inside an instruction the program that is left takes the execution on. -/
theorem Executing.inside (hdevice : ∀ call effect, r.env.device call effect = .done)
    (hhistory : s.history.reverse = earlier ++ part) (hgoes : s.cancelled = false)
    (hnone : s.transfer = none) (h : r.script.Continues (workOf part) index p)
    (hwork : r.Work ⟨s, .inside index p⟩ state') : r.Executing earlier state' := by
  cases h with
  | perform effects hp hleads => exact .performs hdevice hhistory hgoes hnone hp hleads hwork
  | jump i target hi hleads => exact .jumps hhistory hgoes hi hleads hwork
  | stop hexecutes => exact .stops hhistory hexecutes hwork

end Inside

/-- With every step of its worker a run executes its script. -/
theorem Executing.work {first : Nat} (hscript : r.script.IsBuiltin)
    (hdevice : ∀ call effect, r.env.device call effect = .done) (hfits : r.Fits first state)
    (h : r.Executing earlier state) (hwork : r.Work state state') :
    r.Executing earlier state' := by
  cases h with
  | ended => cases hwork
  | goes s point part hhistory hgoes h =>
    have hstep := hwork
    cases hwork with
    | skipStart | delayStart | wakeToStart | land | landBehind | wakeToNext | skipDelay | delay =>
      exact .goes _ _ part hhistory hgoes h
    | resume s index wake rest i hi =>
      obtain ⟨left, hrest, hleads⟩ := h
      rw [hgoes]
      exact .goes _ _ part hhistory hgoes (.perform left hrest hleads)
    | halt s index hcancelled =>
      rw [hgoes] at hcancelled
      cases hcancelled
    | finish s index _ hnone =>
      have hexecutes := (h _ .completed).mpr ⟨[], rfl, .complete index hnone⟩
      rw [List.append_nil] at hexecutes
      exact .ended _ _ part hhistory hexecutes
    | begin s index i _ hi =>
      exact .begin hhistory hgoes h hi (hscript i (List.mem_of_getElem? hi))
    | pause | fail | crash | jump | stop | pass | passLast =>
      exact .inside hdevice hhistory hgoes hfits.point.1 h hstep

/-- A run executes its script, whatever happens at the same time while the worker rests. -/
theorem kept_executing (hscript : r.script.IsBuiltin)
    (hdevice : ∀ call effect, r.env.device call effect = .done) (s : Stage) :
    r.Kept ⟨s, .resting .fresh⟩ (r.Executing earlier) where
  work := fun hreaches hwork h => h.work hscript hdevice (Reaches.fits hscript hreaches) hwork
  tick := by
    intro s phase time h
    cases h with
    | goes _ _ part hhistory hgoes h => exact .goes _ _ part hhistory hgoes h
  turnAway := by
    intro s phase event hevent h
    cases h with
    | goes _ _ part hhistory hgoes h =>
      have hsame : workOf (part ++ [(s.now, event)]) = workOf part := by
        rw [workOf_append]
        rcases hevent with rfl | rfl <;> simp [workOf, Event.isWork]
      exact .goes _ _ _ (Stage.added_record hhistory event) hgoes (hsame.symm ▸ h)

/-- What a run has done by the time is the beginning of what its script does. -/
theorem Executing.isPrefix (h : r.Executing earlier state)
    (hhistory : state.stage.history.reverse = earlier ++ part) {whole : List Event}
    {outcome : Outcome} (hwhole : r.script.Executes 0 whole outcome) : workOf part <+: whole := by
  cases h with
  | goes s point part' hhistory' hgoes h =>
    obtain rfl : part = part' := List.append_cancel_left (hhistory.symm.trans hhistory')
    exact h.isPrefix hwhole
  | ended s outcome' part' hhistory' h =>
    obtain rfl : part = part' := List.append_cancel_left (hhistory.symm.trans hhistory')
    obtain ⟨rfl, -⟩ := h.unique hwhole
    exact List.prefix_refl _

/-- What a run has done when it is over is all that its script does. -/
theorem Executing.of_ended {outcome : Outcome} (h : r.Executing earlier ⟨s, .ended outcome⟩)
    (hhistory : s.history.reverse = earlier ++ part) :
    r.script.Executes 0 (workOf part) outcome := by
  cases h with
  | goes s point part' hhistory' hgoes h => exact h.elim
  | ended s outcome' part' hhistory' h =>
    obtain rfl : part = part' := List.append_cancel_left (hhistory.symm.trans hhistory')
    exact h

end Course

/-- No more instructions have begun in a run than it has done events. -/
theorem Script.length_path_le (script : Script) (part : List (Nat × Event)) :
    (script.path part).length ≤ (workOf part).length := by
  have hbegun : (part.filterMap fun entry => entry.2.begun?) =
      (workOf part).filterMap Event.begun? := by
    rw [workOf, List.filterMap_filter, List.filterMap_map]
    refine List.filterMap_congr fun entry _ => ?_
    cases h : entry.2 <;> simp [h, Event.begun?, Event.isWork]
  rw [Script.path, List.length_map, hbegun]
  exact List.length_filterMap_le _ _

namespace Engine

section Executes

variable {script : Script} (hscript : script.IsBuiltin) (e : Engine)
  (hdevice : ∀ call effect, e.surroundings.device call effect = .done) (lineDelay : Span)

include hscript hdevice

/-- As long as nobody asks for a stop, a run is seen to execute its script. -/
theorem lasting_executing :
    let r := e.courseOf script lineDelay
    let started := e.launch script lineDelay
    Lasting (· ≠ .stop) (r.Shows (r.Executing started.events) started) :=
  Course.lasting_shows _ (Course.kept_executing hscript hdevice _) fun h => absurd rfl h

theorem shows_executing (ops : List Operation) (hops : ∀ op ∈ ops, op ≠ .stop) :
    let r := e.courseOf script lineDelay
    let started := e.launch script lineDelay
    r.Shows (r.Executing started.events) started (started.performAll ops) := by
  intro r started
  -- Nothing is done yet, and the whole of the script is to come.
  have hbegin : r.Executing started.events ⟨started.stage, .resting .fresh⟩ :=
    .goes _ _ [] (List.append_nil _).symm rfl fun whole outcome => by simp [workOf]
  exact (e.lasting_executing hscript hdevice lineDelay).performAll hops
    (.inl ⟨_, e.active_launch script lineDelay, hbegin⟩)

/-- A run executes its script. It began when an engine started a script of built-in commands, the
device performs every effect, and whatever is done is no stop. When the run has ended, its work is
what the script does, and it has ended as the script does. -/
theorem executes (ops : List Operation) (hops : ∀ op ∈ ops, op ≠ .stop) (rounds : Nat) :
    ∃ part ending, RunSoFar (e.launch script lineDelay)
        (((e.launch script lineDelay).performAll ops).finishRun rounds) part ending ∧
      ∀ time outcome, ending = some (time, outcome) →
        script.Executes 0 (workOf part) outcome := by
  have hshows := (e.lasting_executing hscript hdevice lineDelay).finishRun rounds
    (e.shows_executing hscript hdevice lineDelay ops hops)
  obtain ⟨state, part, hseen, hstate⟩ := hshows.seen
  refine ⟨part, state.ending?, hseen.runSoFar, ?_⟩
  intro time outcome hending
  obtain ⟨hpoint, -⟩ := Course.State.ending?_eq_some_iff.mp hending
  obtain ⟨s, point⟩ := state
  obtain rfl : point = .ended outcome := hpoint
  exact hstate.of_ended hseen.history

/-- A script that comes to an end is executed up to there, given time. -/
theorem executed_in_time {events : List Event} {outcome : Outcome}
    (hexecutes : script.Executes 0 events outcome) (ops : List Operation)
    (hops : ∀ op ∈ ops, op ≠ .stop) :
    ∃ rounds part time, RunSoFar (e.launch script lineDelay)
        (((e.launch script lineDelay).performAll ops).finishRun rounds) part
        (some (time, outcome)) ∧ workOf part = events := by
  let r := e.courseOf script lineDelay
  let started := e.launch script lineDelay
  have hshows := e.shows_executing hscript hdevice lineDelay ops hops
  -- Each instruction is an event of the execution.
  have hbound (e' : Engine) (state : Course.State) (part : List (Nat × Event))
      (hseen : r.Seen started e' state part) (hstate : r.Executing started.events state) :
      (script.path part).length ≤ events.length :=
    Nat.le_trans (script.length_path_le part) (hstate.isPrefix hseen.history hexecutes).length_le
  obtain ⟨rounds, s, outcome', hended, hstate⟩ :=
    hshows.over (e.lasting_executing hscript hdevice lineDelay) hbound
  obtain ⟨part, hseen⟩ := hended.seen
  obtain ⟨hevents, rfl⟩ := (hstate.of_ended hseen.history).unique hexecutes
  exact ⟨rounds, part, s.now, hseen.runSoFar, hevents⟩

end Executes

end Engine

end InputScript
