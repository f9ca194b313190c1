import InputScript.Proofs.LineMachine.Refinement
import Mathlib.Data.List.TakeWhile

/-!
# `InputScript.Proofs.LineMachine.Ending`: how a run ends is known from the line machine

A run stays with the line machine from its beginning on, also while it is being finished. Its
past can be read off the events, so there is only one. Where the line machine is completed, the
run has traced a beginning of what the machine has, and given time all of it.

* `refined_launch`: a run stays with the line machine from its beginning.
* `RunSoFar.unique`: a run has one past.
* `traces_of_ended`: where the machine is completed, the run will be.
-/

set_option autoImplicit false

namespace InputScript

open Catalog

namespace LineMachine

/-- An engine that has begun a run refines the line machine, whatever is done next but for a
stop, and when the run is finished after that. -/
theorem refined_launch {lines : List String} {script : Script}
    (hcompile : builtin.compile lines = .ok script) (hfixed : script.IsFixed) (e : Engine)
    (hdevice : ∀ call effect, e.surroundings.device call effect = .done) (lineDelay : Span)
    (ops : List Operation) (hops : ∀ op ∈ ops, op ≠ .stop) (rounds : Nat) :
    Refined (e.launch script lineDelay)
      (run e.surroundings.timer lines lineDelay
        (e.stage.now + e.surroundings.timer.wait e.startDelay))
      (((e.launch script lineDelay).performAll ops).finishRun rounds) := by
  let r : Setting := ⟨lines, script, hcompile, hfixed, lineDelay, e.startDelay, e.surroundings,
    hdevice, e.stage.now + e.surroundings.timer.wait e.startDelay,
    traced (e.launch script lineDelay).events⟩
  have hlevel : r.Level 0 (e.launch script lineDelay).stage :=
    ⟨rfl, rfl, (List.append_nil _).symm⟩
  have hbegin : r.Active (e.launch script lineDelay) 0 (r.size 0 + 2)
      (e.launch script lineDelay) :=
    ⟨rfl, rfl, rfl, ⟨.fresh, rfl, rfl, hlevel, rfl, rfl⟩, [], by simp, (List.append_nil _).symm⟩
  have hlasting : Engine.Lasting (· ≠ .stop) (r.Accompanies (e.launch script lineDelay)) :=
    Setting.lasting_accompanies rfl
  have hafter := hlasting.performAll hops (.inl ⟨0, _, hbegin⟩)
  exact (hlasting.finishRun rounds hafter).refined rfl

end LineMachine

/-! ### A run with a known end -/

/-- What has happened in a run, read off the events. -/
theorem RunSoFar.eq {started e : Engine} {part : List (Nat × Event)}
    {ending : Option (Nat × Outcome)} (h : RunSoFar started e part ending) :
    part = (e.events.drop started.events.length).takeWhile (fun entry => !entry.2.isReport) ∧
      ending = ((e.events.drop started.events.length).dropWhile
        (fun entry => !entry.2.isReport)).head?.bind
          fun entry => entry.2.reported?.map (entry.1, ·) := by
  have hquiet : ∀ entry ∈ part, (!entry.2.isReport) = true := by
    intro entry hentry
    rw [h.quiet entry hentry]
    rfl
  have hevents := h.events
  cases ending with
  | none =>
    rw [hevents.2, List.drop_left, List.takeWhile_eq_self_iff.mpr hquiet,
      List.dropWhile_eq_nil_iff.mpr hquiet]
    exact ⟨rfl, rfl⟩
  | some pair =>
    obtain ⟨time, outcome⟩ := pair
    obtain ⟨rest, hrest⟩ := hevents
    rw [hrest, List.drop_left, List.takeWhile_append_of_pos hquiet,
      List.dropWhile_append_of_pos hquiet]
    simp [Event.isReport, Event.reported?]

/-- A run has one past. -/
theorem RunSoFar.unique {started e : Engine} {part part' : List (Nat × Event)}
    {ending ending' : Option (Nat × Outcome)} (h : RunSoFar started e part ending)
    (h' : RunSoFar started e part' ending') : part = part' ∧ ending = ending' :=
  ⟨h.eq.1.trans h'.eq.1.symm, h.eq.2.trans h'.eq.2.symm⟩

/-- A run that began in `started` and is to trace `whole` until it is completed at a time. It
has traced a beginning of that, and all of it if it has ended. Given time it ends. -/
structure Traces (started : Engine) (whole : List (Nat × Event)) (finish : Nat) (e : Engine) :
    Prop where
  soFar : ∃ part ending, RunSoFar started e part ending ∧ traced part <+: whole ∧
    (ending = none ∨ ending = some (finish, .completed) ∧ traced part = whole)
  ends : ∃ rounds part, RunSoFar started (e.finishRun rounds) part (some (finish, .completed)) ∧
    traced part = whole

namespace LineMachine

/-- Where the line machine is completed, a run that refines it traces the same, and ends at the
same time. -/
theorem traces_of_ended {timer : Timer} {lines : List String} {lineDelay : Span}
    {time n : Nat} {started e : Engine}
    (h : ∀ rounds, Refined started (run timer lines lineDelay time) (e.finishRun rounds))
    (hended : (run timer lines lineDelay time n).outcome = some .completed) :
    Traces started (run timer lines lineDelay time n).trace (run timer lines lineDelay time n).now
      e := by
  have hsoFar (rounds : Nat) : ∃ part ending, RunSoFar started (e.finishRun rounds) part ending ∧
      traced part <+: (run timer lines lineDelay time n).trace ∧
      (ending = none ∨ ending = some ((run timer lines lineDelay time n).now, .completed) ∧
        traced part = (run timer lines lineDelay time n).trace) := by
    obtain ⟨part, ending, m, hpart, -, hafter, hending⟩ := (h rounds).between
    refine ⟨part, ending, hpart, hafter.trans (trace_run_of_ended hended (m + 1)), ?_⟩
    cases ending with
    | none => exact .inl rfl
    | some pair =>
      obtain ⟨houtcome, hnow, htrace⟩ := hending pair.1 pair.2 rfl
      -- The machine ends in one state only.
      have hsame := run_eq_of_ended houtcome hended
      rw [hsame] at houtcome hnow htrace
      rw [hended] at houtcome
      refine .inr ⟨?_, htrace⟩
      rw [hnow, Option.some.inj houtcome]
  obtain ⟨rounds, part, ending, hpart, -, hending⟩ := (h 0).catchesUp n
  obtain ⟨part', ending', hpart', -, hcases⟩ := hsoFar rounds
  obtain ⟨rfl, rfl⟩ := hpart.unique hpart'
  rw [hending .completed hended] at hcases hpart
  refine ⟨hsoFar 0, rounds, part, hpart, ?_⟩
  rcases hcases with hnone | ⟨-, htrace⟩
  · cases hnone
  · exact htrace

end LineMachine

end InputScript
