import InputScript.Cli
import InputScript.Proofs.Engine.Execution
import InputScript.Proofs.Settings.Saved

/-!
# `InputScript.Proofs.Cli.FrontEnds`: the commands of the program agree on a script

A script can be run from a file, checked in that file, and run from the settings. The three go
through different code up to the engine, and a script that compiled could still fail in it. But the
engine takes the run, the device never fails, and a run does nothing besides its script, which it
executes up to its end (`Engine.executes`). So what it logs can be told from the script alone.

* `Engine.progressive_alone`: while a run is finished, only its work happens and its end.
* `Run.start_eq`: the engine does not refuse the run.
* `Run.executes_of_report?`: a run that reports has executed its script and succeeds.
* `Run.reports_of_executes`: a script that comes to an end is reported for, given time.
* `front_ends_agree`: what the three commands have in common.
-/

set_option autoImplicit false

namespace InputScript

/-! ### An engine that does nothing else -/

namespace Engine

/-- An engine without a callback since it began a run in `started`: only the work of the run has
happened, and its end if that has come. -/
inductive Alone (started e : Engine) : Prop where
  | active (part : List (Nat × Event)) (hcallback : e.callback = none)
      (houtcomes : e.outcomes = started.outcomes) (hevents : e.events = started.events ++ part)
      (hwork : ∀ entry ∈ part, entry.2.isWork = true)
  | ended (part : List (Nat × Event)) (time : Nat) (reported told : Outcome)
      (hworker : e.worker = none) (hidle : e.running = false)
      (houtcomes : e.outcomes = started.outcomes ++ [told])
      (hevents : e.events = started.events ++ (part ++ [(time, .ended reported)]))
      (hwork : ∀ entry ∈ part, entry.2.isWork = true) (halike : reported.Alike told)

variable {started e : Engine}

/-- When the worker ends, its last stretch belongs to the work. -/
theorem alone_close {part : List (Nat × Event)} (hcallback : e.callback = none)
    (houtcomes : e.outcomes = started.outcomes) (hevents : e.events = started.events ++ part)
    (hwork : ∀ entry ∈ part, entry.2.isWork = true) {stage : Stage} {new : List (Nat × Event)}
    (hnew : e.stage.Added new stage) {reported told : Outcome} (halike : reported.Alike told) :
    Alone started (e.close stage reported told) := by
  refine .ended (part ++ new.reverse) e.stage.now reported told rfl (by simp) ?_ ?_ ?_ halike
  · rw [outcomes_close, houtcomes]
  · rw [events_close_of_added hnew, hevents, announcement, hcallback]
    simp only [List.append_assoc]
  · intro entry hentry
    rcases List.mem_append.mp hentry with hentry | hentry
    · exact hwork entry hentry
    · exact (hnew.work entry (List.mem_reverse.mp hentry)).2

/-- While a run is finished, only its work happens and its end. -/
theorem progressive_alone (started : Engine) : Progressive (Alone started) where
  poll := by
    intro e h
    cases h with
    | ended part time reported told hworker hidle houtcomes hevents hwork halike =>
      have hnothing : e.poll = e := by rw [poll, hworker]
      rw [hnothing]
      exact .ended part time reported told hworker hidle houtcomes hevents hwork halike
    | active part hcallback houtcomes hevents hwork =>
      have hpolled := e.polled
      generalize e.poll = after at hpolled ⊢
      cases hpolled with
      | waits => exact .active part hcallback houtcomes hevents hwork
      | suspends w stage phase new hs =>
        refine .active (part ++ new.reverse) hcallback houtcomes ?_ ?_
        · show stage.history.reverse = _
          rw [events_of_added hs.added, hevents, List.append_assoc]
        · intro entry hentry
          rcases List.mem_append.mp hentry with hentry | hentry
          · exact hwork entry hentry
          · exact (hs.added.work entry (List.mem_reverse.mp hentry)).2
      | ends w stage outcome new hs =>
        exact alone_close hcallback houtcomes hevents hwork hs.added (.refl outcome)
      | crashes w stage new hs =>
        exact alone_close hcallback houtcomes hevents hwork hs.added trivial
  setClock := by
    intro e time h _ _ _
    cases h with
    | active part hcallback houtcomes hevents hwork =>
      exact .active part hcallback houtcomes hevents hwork
    | ended part time' reported told hworker hidle houtcomes hevents hwork halike =>
      exact .ended part time' reported told hworker hidle houtcomes hevents hwork halike

/-- Work tells nothing of the end of a run. -/
theorem quiet_of_work {part : List (Nat × Event)}
    (hwork : ∀ entry ∈ part, entry.2.isWork = true) :
    ∀ entry ∈ part, entry.2.isReport = false :=
  fun entry hentry => (Event.quiet_of_isWork (hwork entry hentry)).1

/-- Whoever waits for the run is told of its end when it has come, and not before. -/
theorem Alone.outcome?_eq (h : Alone started e) (hfirst : started.outcomes = []) :
    (e.outcome? 0 = none ∧ ∀ part ending, RunSoFar started e part ending → ending = none) ∨
      ∃ part time reported told, e.outcome? 0 = some told ∧ e.isRunning = false ∧
        reported.Alike told ∧ RunSoFar started e part (some (time, reported)) ∧
        e.events = started.events ++ (part ++ [(time, .ended reported)]) ∧
        ∀ entry ∈ part, entry.2.isWork = true := by
  cases h with
  | active part hcallback houtcomes hevents hwork =>
    refine .inl ⟨by rw [outcome?, houtcomes, hfirst]; rfl, ?_⟩
    intro part' ending hpart'
    cases ending with
    | none => rfl
    | some pair =>
      obtain ⟨rest, hrest⟩ := hpart'.events
      rw [hevents] at hrest
      have hended := hwork (pair.1, .ended pair.2) (by
        rw [List.append_cancel_left hrest]
        exact List.mem_append_right _ List.mem_cons_self)
      cases hended
  | ended part time reported told hworker hidle houtcomes hevents hwork halike =>
    refine .inr ⟨part, time, reported, told, ?_, hidle, halike, ?_, hevents, hwork⟩
    · rw [outcome?, houtcomes, hfirst]
      rfl
    · exact ⟨quiet_of_work hwork, [], hevents⟩

end Engine

namespace Cli

open Engine (Alone)

/-- What is logged of a script that is compiled and executed with a line delay. -/
def executionLog (script : Script) (lineDelay : Span) (events : List Event) (outcome : Outcome) :
    List Log.Record :=
  Log.compiled script ::
    (.started script.length (lineDelay.millis % Number.bound64) ::
      (events ++ [.ended outcome])).filterMap Log.ofEvent

namespace Run

variable {run : Run} {conditions conditions' : Conditions} {rounds : Nat}

/-- The engine on which a run has begun. -/
def started (run : Run) (conditions : Conditions) : Engine :=
  (run.engine conditions).launch run.script run.lineDelay

/-- The engine of a run does not refuse it. -/
theorem start_eq (run : Run) (conditions : Conditions) :
    run.start conditions = (run.started conditions, some 0) :=
  Engine.start_of_idle (e := run.engine conditions) rfl run.script run.lineDelay

/-- So its report is made from the outcome for which it waits. -/
theorem report?_eq (run : Run) (conditions : Conditions) (rounds : Nat) :
    run.report? conditions rounds =
      (((run.started conditions).finishRun rounds).outcome? 0).map fun outcome =>
        .ofResult (run.log ((run.started conditions).finishRun rounds)) (runResult outcome) := by
  rw [report?, start_eq]
  rfl

/-- While the run is finished, nothing else happens. -/
theorem alone (run : Run) (conditions : Conditions) (rounds : Nat) :
    Alone (run.started conditions) ((run.started conditions).finishRun rounds) :=
  (Engine.progressive_alone _).finishRun rounds
    (.active [] rfl rfl (List.append_nil _).symm (by simp))

/-- The device of a run never fails. -/
theorem device_done (run : Run) (conditions : Conditions) (call : Nat) (effect : Effect) :
    (run.engine conditions).surroundings.device call effect = .done := rfl

/-- The events of a run that has ended, where nothing else has happened. -/
theorem log_eq (run : Run) {e : Engine} {part : List (Nat × Event)} {time : Nat}
    {outcome : Outcome}
    (hevents : e.events = (run.started conditions).events ++ (part ++ [(time, .ended outcome)]))
    (hwork : ∀ entry ∈ part, entry.2.isWork = true) :
    run.log e = executionLog run.script run.lineDelay (workOf part) outcome := by
  have hstarted : (run.started conditions).events =
      [(0, .started run.script.length (run.lineDelay.millis % Number.bound64))] := by
    rw [started, Engine.events_launch]
    rfl
  -- The times are not logged.
  have hrecords (events : List (Nat × Event)) :
      Log.ofEvents events = (events.map Prod.snd).filterMap Log.ofEvent := by
    rw [Log.ofEvents, List.filterMap_map]
    rfl
  rw [log, executionLog, hrecords, hevents, hstarted, workOf_eq hwork]
  simp only [List.map_append, List.map_cons, List.map_nil, List.singleton_append]

/-- A run that reports has executed its script and succeeds. -/
theorem executes_of_report? (hscript : run.script.IsBuiltin) {report : Report}
    (h : run.report? conditions rounds = some report) :
    ∃ events outcome, run.script.Executes 0 events outcome ∧
      report = ⟨0, "", executionLog run.script run.lineDelay events outcome, []⟩ := by
  rw [report?_eq] at h
  obtain ⟨told, htold, rfl⟩ := Option.map_eq_some_iff.mp h
  rcases (run.alone conditions rounds).outcome?_eq rfl with
    ⟨hnone, -⟩ | ⟨part, time, reported, told', htold', -, halike, hpart, hevents, hwork⟩
  · rw [hnone] at htold
    cases htold
  obtain rfl : told = told' := Option.some.inj (htold.symm.trans htold')
  obtain ⟨part', ending, hpart', hexecutes⟩ := (run.engine conditions).executes hscript
    (run.device_done conditions) run.lineDelay [] (by simp) rounds
  obtain ⟨rfl, rfl⟩ := hpart.unique hpart'
  have hscript := hexecutes time reported rfl
  refine ⟨workOf part, reported, hscript, ?_⟩
  rw [run.log_eq hevents hwork]
  -- The run has not failed, so whoever waits for it is told the same.
  rcases hscript.outcome_eq with rfl | rfl
  · obtain rfl : Outcome.completed = told := halike
    rfl
  · obtain rfl : Outcome.stopped = told := halike
    rfl

/-- A report that was made in some rounds is the same in more of them. -/
theorem report?_of_le {report : Report} (h : run.report? conditions rounds = some report)
    {more : Nat} (hle : rounds ≤ more) : run.report? conditions more = some report := by
  obtain ⟨extra, rfl⟩ := Nat.exists_eq_add_of_le hle
  rw [report?_eq] at h ⊢
  obtain ⟨told, htold, -⟩ := Option.map_eq_some_iff.mp h
  rcases (run.alone conditions rounds).outcome?_eq rfl with
    ⟨hnone, -⟩ | ⟨-, -, -, -, -, hidle, -⟩
  · rw [hnone] at htold
    cases htold
  · rwa [← Engine.finishRun_add, Engine.finishRun_of_idle hidle]

/-- A run whose script comes to an end reports what it has executed, given time. -/
theorem reports_of_executes (run : Run) (hscript : run.script.IsBuiltin) (conditions : Conditions)
    {events : List Event} {outcome : Outcome} (h : run.script.Executes 0 events outcome) :
    ∃ enough, ∀ rounds, enough ≤ rounds → run.report? conditions rounds =
      some ⟨0, "", executionLog run.script run.lineDelay events outcome, []⟩ := by
  obtain ⟨enough, part, time, hpart, -⟩ := (run.engine conditions).executed_in_time hscript
    (run.device_done conditions) run.lineDelay h [] (by simp)
  obtain ⟨report, hreport⟩ : ∃ report, run.report? conditions enough = some report := by
    rcases (run.alone conditions enough).outcome?_eq rfl with
      ⟨-, hnone⟩ | ⟨-, -, -, told, htold, -⟩
    · cases hnone part _ hpart
    · exact ⟨_, by rw [report?_eq, htold]; rfl⟩
  obtain ⟨events', outcome', h', rfl⟩ := executes_of_report? hscript hreport
  obtain ⟨rfl, rfl⟩ := h'.unique h
  exact ⟨enough, fun rounds hle => report?_of_le hreport hle⟩

/-- What is reported of it is what it has executed, but for the records that are not written. -/
theorem executes_of_visible (hcompiled : run.script.IsCompiled) {verbose : Bool} {report : Report}
    (h : (run.report? conditions rounds).map (Report.visible verbose) = some report) :
    ∃ events outcome, run.script.Executes 0 events outcome ∧ report = Report.visible verbose
      ⟨0, "", executionLog run.script run.lineDelay events outcome, []⟩ := by
  obtain ⟨whole, hwhole, rfl⟩ := Option.map_eq_some_iff.mp h
  obtain ⟨events, outcome, hexecutes, rfl⟩ := executes_of_report? hcompiled.isBuiltin hwhole
  exact ⟨events, outcome, hexecutes, rfl⟩

/-- Whether a run reports at all depends on its script alone. -/
theorem exists_visible_iff (hcompiled : run.script.IsCompiled) {verbose : Bool} :
    (∃ rounds report,
      (run.report? conditions rounds).map (Report.visible verbose) = some report) ↔
      ∃ events outcome, run.script.Executes 0 events outcome := by
  constructor
  · rintro ⟨rounds, report, hreport⟩
    obtain ⟨events, outcome, hexecutes, -⟩ := executes_of_visible hcompiled hreport
    exact ⟨events, outcome, hexecutes⟩
  · rintro ⟨events, outcome, hexecutes⟩
    obtain ⟨enough, hreports⟩ := run.reports_of_executes hcompiled.isBuiltin conditions hexecutes
    exact ⟨enough, _, by rw [hreports enough (Nat.le_refl _)]; rfl⟩

end Run

/-! ### Three commands -/

/-- A text that the program is given in three ways: it runs the text from a file, it checks the
same file, and it runs the script that it finds under a name in the settings, which is the same
text. -/
structure FrontEnds where
  text : String
  /-- What reading a file yields. -/
  read : String → Except FileError String
  path : String
  file : read path = .ok text
  settingsPath : String
  settings : Settings
  loaded : Settings.load settingsPath (read settingsPath) = .ok settings
  name : String
  saved : SavedScript
  /-- The script is the first one whose name matches. -/
  found : settings.find? name = some saved
  holds : saved.script = text
  verbose : Bool
  lineDelay : Nat
  startDelay : Nat
  runArgs : List String
  checkArgs : List String
  savedArgs : List String
  run : Request.parse runArgs = .ok (.perform ⟨verbose, .run path lineDelay startDelay⟩)
  check : ∃ verbose, Request.parse checkArgs = .ok (.perform ⟨verbose, .check path⟩)
  runSaved : Request.parse savedArgs = .ok (.perform ⟨verbose, .runSaved name settingsPath⟩)

namespace FrontEnds

variable (f : FrontEnds)

/-- The report of a text that does not compile. -/
def refusal (context : String) (error : CompileError) : Report :=
  .ofResult [] (.error ⟨context, compileCauses error⟩)

/-- What running a text from a file, checking it and running it from the settings have in common,
under any conditions. -/
structure Agree (conditions conditions' : Conditions) : Prop where
  /-- If the run ends, it succeeds just if the check does. -/
  succeeds : ∀ rounds report, perform f.runArgs conditions rounds f.read = some report →
    ∃ checked, (∀ rounds, perform f.checkArgs conditions' rounds f.read = some checked) ∧
      (report.code = 0 ↔ checked.code = 0)
  /-- In that case it has executed the text up to its end, and this is all that it logs. -/
  executed : ∀ rounds report, perform f.runArgs conditions rounds f.read = some report →
    report.code = 0 → ∃ script events outcome,
      Catalog.builtin.compileText f.text = .ok script ∧ script.Executes 0 events outcome ∧
      report = Report.visible f.verbose
        ⟨0, "", executionLog script (.ofMillis f.lineDelay) events outcome, []⟩
  /-- A text that compiles and comes to an end is run to there, given time. -/
  reported : ∀ script events outcome, Catalog.builtin.compileText f.text = .ok script →
    script.Executes 0 events outcome → ∃ enough, ∀ rounds, enough ≤ rounds →
      perform f.runArgs conditions rounds f.read = some (Report.visible f.verbose
        ⟨0, "", executionLog script (.ofMillis f.lineDelay) events outcome, []⟩)
  /-- Where the text does not compile, all three fail for the same causes, and nothing is
  logged. -/
  refused : ∀ error, Catalog.builtin.compileText f.text = .error error →
    ∀ conditions rounds, perform f.runArgs conditions rounds f.read =
        some (refusal (fileContext f.path) error) ∧
      perform f.checkArgs conditions rounds f.read = some (refusal (fileContext f.path) error) ∧
      perform f.savedArgs conditions rounds f.read =
        some (refusal s!"Failed to compile saved script '{f.saved.name}'" error)
  /-- Where it compiles and the delays are those of the settings, both runs report the same when
  they have ended, whatever was drawn in either. -/
  same : ∀ script, Catalog.builtin.compileText f.text = .ok script →
    f.lineDelay = f.saved.lineDelayMillis.toNat →
    f.startDelay = f.settings.startDelayMillis.toNat → ∀ rounds rounds' report report',
      perform f.runArgs conditions rounds f.read = some report →
      perform f.savedArgs conditions' rounds' f.read = some report' → report' = report
  /-- Both runs end if one of them does. -/
  ends : ∀ script, Catalog.builtin.compileText f.text = .ok script →
    ((∃ rounds report, perform f.runArgs conditions rounds f.read = some report) ↔
      ∃ rounds report, perform f.savedArgs conditions' rounds f.read = some report)

variable {f} {script : Script} {error : CompileError}

/-- A command that makes its plan from the text fails if the text does not compile, and else it
comes to what its plan for the script says. -/
theorem perform_ofScript {args : List String} {i : Invocation} {path context : String}
    {next : Script → Plan} (hparse : Request.parse args = .ok (.perform i))
    (hpath : i.task.path? = some path)
    (hplan : i.task.plan (f.read path) =
      Plan.ofScript context next (Catalog.builtin.compileText f.text))
    (conditions : Conditions) (rounds : Nat) :
    perform args conditions rounds f.read =
      match Catalog.builtin.compileText f.text with
      | .error error => some (refusal context error)
      | .ok script =>
        match next script with
        | .finished report => some (report.visible i.verbose)
        | .run run => (run.report? conditions rounds).map (Report.visible i.verbose) := by
  simp only [perform, hparse, Invocation.perform, hpath, Invocation.plan, hplan]
  cases Catalog.builtin.compileText f.text with
  | error error => rfl
  | ok script => rfl

/-- Running the file makes its plan from the text. -/
theorem plan_run (f : FrontEnds) :
    (Task.run f.path f.lineDelay f.startDelay).plan (f.read f.path) =
      Plan.ofScript (fileContext f.path)
        (fun script => .run ⟨script, .ofMillis f.lineDelay, .ofMillis f.startDelay⟩)
        (Catalog.builtin.compileText f.text) := by
  rw [Task.plan, f.file]
  rfl

/-- So does checking it. -/
theorem plan_check (f : FrontEnds) : (Task.check f.path).plan (f.read f.path) =
    Plan.ofScript (fileContext f.path)
      (fun script => .finished (.ofResult [Log.compiled script] (.ok (checkLine f.path script))))
      (Catalog.builtin.compileText f.text) := by
  rw [Task.plan, f.file]
  rfl

/-- So does running the script from the settings. -/
theorem plan_runSaved (f : FrontEnds) :
    (Task.runSaved f.name f.settingsPath).plan (f.read f.settingsPath) =
      Plan.ofScript s!"Failed to compile saved script '{f.saved.name}'"
        (fun script => .run ⟨script, f.saved.lineDelay, f.settings.startDelay⟩)
        (Catalog.builtin.compileText f.text) := by
  rw [Task.plan, f.loaded]
  dsimp only
  rw [savedPlan, f.found]
  dsimp only
  rw [f.holds]

/-- Where the text does not compile, no command gets further than that. -/
theorem perform_refused (h : Catalog.builtin.compileText f.text = .error error)
    (conditions : Conditions) (rounds : Nat) :
    perform f.runArgs conditions rounds f.read = some (refusal (fileContext f.path) error) ∧
    perform f.checkArgs conditions rounds f.read = some (refusal (fileContext f.path) error) ∧
    perform f.savedArgs conditions rounds f.read =
      some (refusal s!"Failed to compile saved script '{f.saved.name}'" error) := by
  obtain ⟨verbose, hcheck⟩ := f.check
  rw [perform_ofScript f.run rfl f.plan_run, perform_ofScript hcheck rfl f.plan_check,
    perform_ofScript f.runSaved rfl f.plan_runSaved, h]
  exact ⟨rfl, rfl, rfl⟩

/-- A text that compiles is run from the file. -/
theorem perform_run (h : Catalog.builtin.compileText f.text = .ok script) (conditions : Conditions)
    (rounds : Nat) : perform f.runArgs conditions rounds f.read =
      (Run.report? ⟨script, .ofMillis f.lineDelay, .ofMillis f.startDelay⟩ conditions rounds).map
        (Report.visible f.verbose) := by
  rw [perform_ofScript f.run rfl f.plan_run, h]

/-- It is run from the settings. -/
theorem perform_runSaved (h : Catalog.builtin.compileText f.text = .ok script)
    (conditions : Conditions) (rounds : Nat) : perform f.savedArgs conditions rounds f.read =
      (Run.report? ⟨script, f.saved.lineDelay, f.settings.startDelay⟩ conditions rounds).map
        (Report.visible f.verbose) := by
  rw [perform_ofScript f.runSaved rfl f.plan_runSaved, h]

/-- Its check succeeds. -/
theorem perform_check (h : Catalog.builtin.compileText f.text = .ok script) :
    ∃ checked, checked.code = 0 ∧
      ∀ conditions rounds, perform f.checkArgs conditions rounds f.read = some checked := by
  obtain ⟨verbose, hcheck⟩ := f.check
  refine ⟨Report.visible verbose (.ofResult [Log.compiled script] (.ok (checkLine f.path script))),
    rfl, ?_⟩
  intro conditions rounds
  rw [perform_ofScript hcheck rfl f.plan_check, h]

end FrontEnds

/-- The front ends agree on a script. Any text is given to the program in a file that it runs and
checks, and in settings under a name. A run that ends succeeds just if the check does. It has then
executed the text until it was completed or stopped itself, and logs just that; and a text that
comes to an end is run to there. If the text does not compile, all three commands fail for this
reason and nothing is logged. If it compiles, the run from the file ends just if the run from the
settings does, and if the delays are the same they report the same, record for record. -/
theorem front_ends_agree (f : FrontEnds) (conditions conditions' : Conditions) :
    f.Agree conditions conditions' where
  succeeds := by
    intro rounds report hreport
    cases hcompile : Catalog.builtin.compileText f.text with
    | error error =>
      have hrefused := f.perform_refused hcompile
      refine ⟨_, fun rounds => (hrefused conditions' rounds).2.1, ?_⟩
      rw [(hrefused conditions rounds).1] at hreport
      rw [← Option.some.inj hreport]
    | ok script =>
      obtain ⟨checked, hcode, hchecked⟩ := f.perform_check hcompile
      have hcompiled : script.IsCompiled := ⟨_, hcompile⟩
      rw [f.perform_run hcompile] at hreport
      obtain ⟨events, outcome, -, rfl⟩ := Run.executes_of_visible hcompiled hreport
      exact ⟨checked, hchecked conditions', iff_of_true rfl hcode⟩
  executed := by
    intro rounds report hreport hcode
    cases hcompile : Catalog.builtin.compileText f.text with
    | error error =>
      rw [(f.perform_refused hcompile conditions rounds).1] at hreport
      rw [← Option.some.inj hreport] at hcode
      cases hcode
    | ok script =>
      have hcompiled : script.IsCompiled := ⟨_, hcompile⟩
      rw [f.perform_run hcompile] at hreport
      obtain ⟨events, outcome, hexecutes, hlog⟩ := Run.executes_of_visible hcompiled hreport
      exact ⟨script, events, outcome, rfl, hexecutes, hlog⟩
  reported := by
    intro script events outcome hcompile hexecutes
    have hcompiled : script.IsCompiled := ⟨_, hcompile⟩
    obtain ⟨enough, hreports⟩ := Run.reports_of_executes
      ⟨script, .ofMillis f.lineDelay, .ofMillis f.startDelay⟩ hcompiled.isBuiltin conditions
      hexecutes
    refine ⟨enough, fun rounds hle => ?_⟩
    rw [f.perform_run hcompile, hreports rounds hle]
    rfl
  refused := fun error hcompile conditions rounds => f.perform_refused hcompile conditions rounds
  same := by
    intro script hcompile hline hstart rounds rounds' report report' hreport hreport'
    have hcompiled : script.IsCompiled := ⟨_, hcompile⟩
    rw [f.perform_run hcompile] at hreport
    rw [f.perform_runSaved hcompile] at hreport'
    obtain ⟨events, outcome, hexecutes, rfl⟩ := Run.executes_of_visible hcompiled hreport
    obtain ⟨events', outcome', hexecutes', rfl⟩ := Run.executes_of_visible hcompiled hreport'
    -- The script executes in one way.
    obtain ⟨rfl, rfl⟩ := hexecutes.unique hexecutes'
    rw [hline]
    rfl
  ends := by
    intro script hcompile
    have hcompiled : script.IsCompiled := ⟨_, hcompile⟩
    simp only [f.perform_run hcompile, f.perform_runSaved hcompile]
    -- The script is the same.
    rw [Run.exists_visible_iff hcompiled, Run.exists_visible_iff hcompiled]

/-- A script with a jump over a line, given in a file with delays on the command line, and in the
settings under a name in other letters. -/
theorem front_ends_agree_jump : ∃ f : FrontEnds,
    f.text = "MouseWheel 1\nCall 4\nMouseWheel 2\nStop" ∧
    f.runArgs = ["-v", "run", "s.txt", "-l2", "-s3"] ∧ f.checkArgs = ["check", "s.txt"] ∧
    f.savedArgs = ["run-saved", "S", "-v"] ∧
    f.Agree .plain { Conditions.plain with chance := fun _ => 7 } ∧
    (perform f.runArgs .plain 8 f.read).map
        (fun report => (report.code, report.log.map (·.message))) =
      some (0, ["compiled script", "script started", "execute", "scroll_wheel(1)", "execute",
        "jump", "execute", "script stopped"]) := by
  let text := "MouseWheel 1\nCall 4\nMouseWheel 2\nStop"
  let saved : SavedScript := ⟨"s", text, none, 2⟩
  let settings : Settings := ⟨[saved], 3⟩
  let read (path : String) : Except FileError String :=
    if path = "s.txt" then .ok text
    else if path = defaultSettings then .ok settings.render else .error .notFound
  let f : FrontEnds := {
    text := text, read := read, path := "s.txt", file := rfl
    settingsPath := defaultSettings, settings := settings
    loaded := by
      show Settings.load defaultSettings (.ok settings.render) = .ok settings
      rw [Settings.load, Settings.parse_render]
    name := "S", saved := saved, found := by decide +kernel, holds := rfl
    verbose := true, lineDelay := 2, startDelay := 3
    runArgs := ["-v", "run", "s.txt", "-l2", "-s3"], checkArgs := ["check", "s.txt"]
    savedArgs := ["run-saved", "S", "-v"]
    run := by decide +kernel
    check := ⟨false, by decide +kernel⟩
    runSaved := by decide +kernel }
  exact ⟨f, rfl, rfl, rfl, rfl, front_ends_agree f _ _, by decide +kernel⟩

end Cli

end InputScript
