import InputScript.Proofs.Engine.Control
import Mathlib.Data.List.Induction

/-!
# `InputScript.Proofs.Engine.Cursor`: what the cursor of an engine shows

The cursor is a mark on the stage that stays when a run has ended. A start sets it back, each
instruction moves it to its own index when it begins, and nothing else touches it. So while a run is
active the events of that run tell what the cursor shows: nothing has begun yet and it is zero, or
it is the index of the instruction that began last (`Script.Shows`). Lines tell instructions apart
in a script that compiles, with any catalog, so no other index fits.

Which run that is, the operations tell. An engine that is running was idle before some start, and
its run has been active ever since (`Engine.exists_launch`).

* `Course.Reaches.shown`: wherever a run stands, the cursor is in step with its events.
* `Engine.exists_launch`: the operation with which the active run began.
* `Engine.cursor_shows_last_begun`: the cursor after any operations, and while the worker works.
-/

set_option autoImplicit false

namespace InputScript

/-! ### The last instruction to begin -/

/-- An index that the cursor may show behind the events of a run: zero before the first instruction,
and then the index of the instruction that began last. -/
inductive Script.Shows (script : Script) (part : List (Nat × Event)) : Nat → Prop where
  | fresh (hnone : inProgress? part = none) : Shows script part 0
  | begun {index : Nat} {i : Instruction} (h : script.InProgress part index i) :
      Shows script part index

namespace Script.Shows

variable {script : Script} {part new : List (Nat × Event)} {cursor : Nat}

/-- Only one index fits the events. -/
theorem unique (hsorted : script.instructions.Pairwise fun a b => a.line < b.line)
    (h : script.Shows part cursor) {other : Nat} (hother : script.Shows part other) :
    other = cursor := by
  cases h with
  | fresh hnone =>
    cases hother with
    | fresh => rfl
    | begun hi =>
      rw [hi.last] at hnone
      cases hnone
  | @begun _ i hi =>
    cases hother with
    | fresh hnone =>
      rw [hi.last] at hnone
      cases hnone
    | @begun _ j hj =>
      have hsame : (j.line, j.name) = (i.line, i.name) :=
        Option.some.inj (hj.last.symm.trans hi.last)
      exact (eq_of_line hsorted hi.here hj.here (congrArg Prod.fst hsame)).1

/-- An index that is shown is that of an instruction, unless there is none at all. -/
theorem lt_length (h : script.Shows part cursor) (hne : 0 < script.length) :
    cursor < script.length := by
  cases h with
  | fresh => exact hne
  | begun hi => exact (List.getElem?_eq_some_iff.mp hi.here).1

/-- Events with which no instruction begins change nothing. -/
theorem append (h : script.Shows part cursor) (hnew : ∀ entry ∈ new, entry.2.begun? = none) :
    script.Shows (part ++ new) cursor := by
  have hlast : inProgress? (part ++ new) = inProgress? part := Engine.inProgress?_append hnew
  cases h with
  | fresh hnone => exact .fresh (hlast.trans hnone)
  | begun hi => exact .begun ⟨hi.here, hlast.trans hi.last⟩

/-- An instruction that begins is shown. -/
theorem begin {index : Nat} {i : Instruction} (hi : script.instructions[index]? = some i)
    (part : List (Nat × Event)) (time : Nat) :
    script.Shows (part ++ [(time, .executing i.line i.name)]) index :=
  .begun ⟨hi, inProgress?_of_begun part time i.line i.name (by simp)⟩

end Script.Shows

/-! ### A run -/

/-- A program leaves the cursor where it is. -/
theorem Program.cursor_run (env : Surroundings) (p : Program) (s : Stage) :
    (p.run env s).1.cursor = s.cursor := by
  induction p generalizing s with
  | done | fail | crash => rfl
  | call effect next failed ih ihFailed =>
    have hcall : (s.call env.device effect).cursor = s.cursor := s.cursor_call env.device effect
    rw [run]
    split
    · exact (ih _).trans hcall
    · exact (ihFailed _ _).trans hcall
    · exact hcall
  | pause span next ih =>
    rw [run]
    split
    · exact ih _ s
    · rfl
  | stopping next ih => exact ih _ s
  | jump line next ih | stop next ih => exact ih _
  | choose low high next ih => exact ih _ _

namespace Course

variable (r : Course) (earlier : List (Nat × Event))

/-- The cursor is in step with the events that a run has added to earlier ones. -/
def Shown (state : State) : Prop :=
  ∃ part, state.stage.history.reverse = earlier ++ part ∧
    r.script.Shows part state.stage.cursor

variable {r earlier} {state state' : State}

/-- An event with which no instruction begins leaves the cursor in step. -/
theorem Shown.record {s : Stage} {point : Point} (h : r.Shown earlier ⟨s, point⟩)
    {event : Event} (hevent : event.begun? = none) : r.Shown earlier ⟨s.record event, point⟩ := by
  obtain ⟨part, hpart, hshows⟩ := h
  exact ⟨part ++ [(s.now, event)], Stage.added_record hpart event,
    hshows.append (by simpa using hevent)⟩

/-- A program leaves it in step. -/
theorem Shown.run {s s' : Stage} {point : Point} (h : r.Shown earlier ⟨s, point⟩) {p : Program}
    {halt : Halt} (hrun : p.run r.env s = (s', halt)) (point' : Point) :
    r.Shown earlier ⟨s', point'⟩ := by
  obtain ⟨part, hpart, hshows⟩ := h
  obtain ⟨new, hnew, hquiet⟩ := Program.run_begins_nothing hrun
  refine ⟨part ++ new, ?_, ?_⟩
  · rw [hnew, hpart, List.append_assoc]
  · have hcursor := p.cursor_run r.env s
    rw [hrun] at hcursor
    show r.script.Shows (part ++ new) s'.cursor
    rw [hcursor]
    exact hshows.append hquiet

/-- Every step of the worker keeps the cursor in step. -/
theorem Shown.work (h : r.Shown earlier state) (hwork : r.Work state state') :
    r.Shown earlier state' := by
  cases hwork with
  | begin s index i hgoes hi =>
    obtain ⟨part, hpart, -⟩ := h
    exact ⟨_, Stage.added_record hpart (.executing i.line i.name), .begin hi part s.now⟩
  | jump s s' index i p target hi hrun =>
    have hreturned : r.Shown earlier ⟨s', .resting (.afterJump target)⟩ := h.run hrun _
    exact hreturned.record rfl
  | pause _ _ _ _ _ _ _ _ hrun | fail _ _ _ _ _ _ _ hrun | crash _ _ _ _ _ _ hrun
  | stop _ _ _ _ _ _ hrun | pass _ _ _ _ _ _ hrun | passLast _ _ _ _ _ _ hrun =>
    exact h.run hrun _
  -- The other steps leave the stage as it is.
  | _ => exact h

/-- Every step of a run does. -/
theorem Shown.step (h : r.Shown earlier state) (hstep : r.Step state state') :
    r.Shown earlier state' := by
  cases hstep with
  | work _ _ hwork => exact h.work hwork
  | tick => exact h
  | turnAway s phase event hevent =>
    apply h.record
    rcases hevent with rfl | rfl <;> rfl
  | cancel s phase => exact h.record rfl

/-- A run that began with the cursor at zero has it in step wherever it stands. -/
theorem Reaches.shown {s : Stage} (hzero : s.cursor = 0)
    (h : r.Reaches ⟨s, .resting .fresh⟩ state) : r.Shown s.history.reverse state := by
  induction h with
  | refl => exact ⟨[], (List.append_nil _).symm, hzero ▸ .fresh rfl⟩
  | tail _ hstep ih => exact ih.step hstep

end Course

namespace Engine

/-! ### The operation with which the active run began -/

section Launch

variable {e : Engine} {r : Course} {started : Engine} {phase : Phase} {op : Operation}

/-- A run that is active before and after an operation is the same. -/
theorem active_perform (h : r.Active started phase e) (hsound : e.Sound)
    (hrunning : (e.perform op).running = true) :
    ∃ phase', r.Active started phase' (e.perform op) := by
  have hgoes : r.Goes started (e.perform op) :=
    (Course.lasting_goes started).perform trivial (.inl ⟨phase, h⟩)
  rcases hgoes with hactive | ⟨s, outcome, hended⟩
  · exact hactive
  exfalso
  rcases hended.since with hmore | ⟨-, hidle, -⟩
  · -- An operation that ends a run starts no other one.
    rcases perform_reports hsound op with hquiet | ⟨reported, hends⟩
    · have hruns : (e.perform op).runs = e.runs := by
        simp only [runs, isRunning, hquiet.outcomes, hrunning, h.running]
      rw [hruns, h.runs] at hmore
      exact Nat.lt_irrefl _ hmore
    · have hidle : (e.perform op).running = false := hends.idle
      simp [hrunning] at hidle
  · simp [hrunning] at hidle

/-- Only a start makes an idle engine active. -/
theorem exists_eq_start (hidle : e.running = false) (hsound : e.Sound)
    (hrunning : (e.perform op).running = true) :
    ∃ script lineDelay, op = .start script lineDelay := by
  have hbegin : e.Worked e := ⟨hsound, rfl, .inl ⟨rfl, .refl rfl rfl⟩⟩
  have hkept {e' : Engine} (h : e.Worked e') : e'.running = false := by
    rcases h.told with ⟨hsame, -⟩ | ⟨reported, hends⟩
    · exact hsame.trans hidle
    · exact hends.idle
  have hnot : (e.perform op).running = false →
      ∃ script lineDelay, op = .start script lineDelay := by
    intro h
    simp [hrunning] at h
  cases op with
  | start script lineDelay => exact ⟨script, lineDelay, rfl⟩
  | startOutside => exact hnot hidle
  | stop =>
    refine hnot ?_
    show e.stop.running = false
    rw [stop_of_idle hidle]
    exact hidle
  | onFinished callback => exact hnot hidle
  | advance span rounds => exact hnot (hkept ((progressive_worked e).advance span rounds hbegin))
  | yield rounds => exact hnot (hkept ((progressive_worked e).yield rounds hbegin))
  | wait run rounds => exact hnot (hkept ((progressive_worked e).waitFor run rounds hbegin))

/-- If an engine is running, there is an operation with which its run began: a start of an idle
engine. The run has been active since. -/
theorem exists_launch (startDelay : Span) (env : Surroundings) {ops : List Operation}
    (hrunning : ((Engine.new startDelay env).performAll ops).running = true) :
    ∃ before script lineDelay later phase, ops = before ++ .start script lineDelay :: later ∧
      ((Engine.new startDelay env).performAll before).running = false ∧
      (((Engine.new startDelay env).performAll before).courseOf script lineDelay).Active
        (((Engine.new startDelay env).performAll before).launch script lineDelay) phase
        ((Engine.new startDelay env).performAll ops) := by
  induction ops using List.reverseRecOn with
  | nil => cases hrunning
  | append_singleton ops op ih =>
    have hsound := Sound.performAll startDelay env ops
    have hlast : (Engine.new startDelay env).performAll (ops ++ [op]) =
        ((Engine.new startDelay env).performAll ops).perform op := performAll_append ..
    rw [hlast] at hrunning ⊢
    by_cases hbefore : ((Engine.new startDelay env).performAll ops).running = true
    · obtain ⟨before, script, lineDelay, later, phase, hsplit, hidle, hactive⟩ := ih hbefore
      obtain ⟨phase', hactive'⟩ := active_perform hactive hsound hrunning
      refine ⟨before, script, lineDelay, later ++ [op], phase', ?_, hidle, hactive'⟩
      rw [hsplit, List.append_assoc, List.cons_append]
    · rw [Bool.not_eq_true] at hbefore
      obtain ⟨script, lineDelay, rfl⟩ := exists_eq_start hbefore hsound hrunning
      refine ⟨ops, script, lineDelay, [], .fresh, rfl, hbefore, ?_⟩
      rw [perform, start_of_idle hbefore]
      exact active_launch _ script lineDelay

end Launch

/-! ### The cursor of an engine -/

/-- The run that is active after operations: an operation has started its script while the engine
was idle, and since then it has added events and not ended. -/
def ActiveRun (origin : Engine) (ops : List Operation) (script : Script)
    (part : List (Nat × Event)) : Prop :=
  ∃ before lineDelay later, ops = before ++ .start script lineDelay :: later ∧
    (origin.performAll before).isRunning = false ∧
    RunSoFar ((origin.performAll before).start script lineDelay).1 (origin.performAll ops) part none

/-- The cursor of an engine shows what the events of a run say, and nothing else would fit them. It
is the index of an instruction, if there is one. -/
def CursorFits (e : Engine) (script : Script) (part : List (Nat × Event)) : Prop :=
  ∃ cursor, e.cursor? = some cursor ∧ script.Shows part cursor ∧
    (∀ other, script.Shows part other → other = cursor) ∧
    (0 < script.length → cursor < script.length)

/-- A stage that the worker of an engine comes to when it is let go on. -/
def ComesTo (e : Engine) (stage : Stage) : Prop :=
  ∃ w point, e.worker = some w ∧
    (e.courseOf w.script w.lineDelay).Works ⟨e.stage, .resting w.phase⟩ ⟨stage, point⟩

end Engine

/-- While a run is active, and wherever its worker comes to from there, the cursor fits the events
of the run. -/
theorem Course.Active.cursorFits {r : Course} {started e : Engine} {phase : Phase}
    (h : r.Active started phase e) (hzero : started.stage.cursor = 0)
    (hsorted : r.script.instructions.Pairwise fun a b => a.line < b.line)
    {part new : List (Nat × Event)} (hpart : e.events = started.events ++ part) {stage : Stage}
    {point : Point} (hworks : r.Works ⟨e.stage, .resting phase⟩ ⟨stage, point⟩)
    (hnew : stage.history.reverse = e.events ++ new) :
    Engine.CursorFits { e with stage } r.script (part ++ new) := by
  obtain ⟨whole, hwhole, hshows⟩ := Reaches.shown hzero (h.reaches.trans (Works.reaches hworks))
  -- What the run has added is the same for the cursor and for the account of its events.
  rw [hnew, hpart, List.append_assoc] at hwhole
  obtain rfl : part ++ new = whole := List.append_cancel_left hwhole
  exact ⟨stage.cursor, if_pos h.running, hshows, fun _ hother => hshows.unique hsorted hother,
    hshows.lt_length⟩

namespace Engine

/-- After any operations that start scripts which compile, perhaps each with another catalog, an
engine has a cursor just while it is running. The cursor is zero as long as the active run has begun
no instruction and otherwise the index of the one that this run began last. The same holds wherever
the worker comes to on its way to the next operation. -/
theorem cursor_shows_last_begun (startDelay : Span) (env : Surroundings) (ops : List Operation)
    (hcompiled : ∀ script lineDelay, .start script lineDelay ∈ ops →
      ∃ (catalog : Catalog) (lines : List String), catalog.compile lines = .ok script) :
    let e := (Engine.new startDelay env).performAll ops
    e.cursor?.isSome = e.isRunning ∧
    (e.isRunning = true → ∃ script part, (Engine.new startDelay env).ActiveRun ops script part ∧
      e.CursorFits script part ∧
      ∀ stage, e.ComesTo stage → ∃ new, stage.history.reverse = e.events ++ new ∧
        CursorFits { e with stage } script (part ++ new)) := by
  dsimp only
  constructor
  · rw [cursor?]
    split
    · rename_i hrunning
      exact hrunning.symm
    · rename_i hidle
      rw [Bool.not_eq_true] at hidle
      exact hidle.symm
  intro hrunning
  obtain ⟨before, script, lineDelay, later, phase, hsplit, hidle, hactive⟩ :=
    exists_launch startDelay env hrunning
  obtain ⟨catalog, lines, hcompile⟩ := hcompiled script lineDelay (by simp [hsplit])
  have hsorted := Catalog.sorted_of_compile hcompile
  obtain ⟨part, hseen⟩ := hactive.seen
  have hpart := (hseen.runSoFar.events : _ ∧ _).2
  refine ⟨script, part, ⟨before, lineDelay, later, hsplit, hidle, ?_⟩, ?_, ?_⟩
  · rw [start_of_idle hidle]
    exact hseen.runSoFar
  · have hfits := hactive.cursorFits rfl hsorted hpart .refl (List.append_nil _).symm
    rwa [List.append_nil] at hfits
  · rintro stage ⟨w, point, hw, hworks⟩
    obtain rfl := Option.some.inj (hw.symm.trans hactive.worker)
    rw [courseOf, hactive.surroundings, hactive.startDelay] at hworks
    obtain ⟨new, hnew, -⟩ := (Course.Works.reaches hworks).added
    exact ⟨new, hnew, hactive.cursorFits rfl hsorted hpart hworks hnew⟩

/-- A run that was stopped had come to its second instruction. Another run of the same script has
begun the first one. -/
theorem cursor_shows_last_begun_restarted : ∃ script,
    Catalog.builtin.compile ["Call 2", "Wait 5"] = .ok script ∧
    (let ops := [.start script .zero, .yield 2, .stop, .yield 1, .start script .zero, .yield 1]
    let after count := (Engine.new .zero .plain).performAll (ops.take count)
    (after 2).cursor? = some 1 ∧ (after 4).cursor? = none ∧ (after 6).cursor? = some 0 ∧
    ∃ other part, (Engine.new .zero .plain).ActiveRun ops other part ∧
      (after 6).CursorFits other part) := by
  have hcompile : Catalog.builtin.compile ["Call 2", "Wait 5"] =
      .ok ⟨[⟨1, ["2"], .call 2⟩, ⟨2, ["5"], .wait (.ofMillis 5) (.ofMillis 5)⟩], 2⟩ := by
    with_unfolding_all rfl
  have hcompiled {script : Script} (h : Catalog.builtin.compile ["Call 2", "Wait 5"] = .ok script)
      (other : Script) (lineDelay : Span)
      (hmem : Operation.start other lineDelay ∈
        [.start script .zero, .yield 2, .stop, .yield 1, .start script .zero, .yield 1]) :
      ∃ (catalog : Catalog) (lines : List String), catalog.compile lines = .ok other := by
    have hsame : other = script := by simp_all
    exact ⟨Catalog.builtin, _, hsame ▸ h⟩
  obtain ⟨-, hrun⟩ := cursor_shows_last_begun .zero .plain _ (hcompiled hcompile)
  obtain ⟨other, part, hactive, hfits, -⟩ := hrun (by rfl)
  exact ⟨_, hcompile, by rfl, by rfl, by rfl, other, part, hactive, hfits⟩

end Engine

end InputScript
