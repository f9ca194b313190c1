import InputScript.Proofs.Engine.Abreast

/-!
# `InputScript.Proofs.Engine.Interruption`: an interruption only truncates

What a run has traced is always a beginning of what the undisturbed run of the same script
traces. Where a call of the device fails or crashes, it is what the undisturbed run traces
before that effect, together with the effect if the call has performed it all the same, and the
run ends there. Where a stop is asked for in a call, what follows belongs to the same execution
of an instruction.

The call with a number is found in the undisturbed run: it is the call for its effect of that
number (`IsEffect`). A run that was stopped from outside may have made fewer calls.

* `Course.Asks.cases`: a call was answered, or it was the last one and was refused.
* `Engine.interruption_truncates`: what this means for every script of built-in commands.
-/

set_option autoImplicit false

namespace InputScript

/-- The `k`-th effect of a run that is known by what it has traced after some rounds, with its
time and with what was traced before it. -/
structure IsEffect (whole : Nat → List (Nat × Event)) (k : Nat) (before : List (Nat × Event))
    (time : Nat) (effect : Effect) : Prop where
  count : (effectsOf before).length + 1 = k
  comes : ∃ rounds after, whole rounds = before ++ (time, .performed effect) :: after

/-- What interruptions do to a run: it began when the device had been asked `first` times, it
has made a number of calls, and `whole` is what it would trace undisturbed. -/
structure Truncated (device : Device) (whole : Nat → List (Nat × Event))
    (first made : Nat) (part : List (Nat × Event)) (ending : Option (Nat × Outcome)) :
    Prop where
  /-- The run has traced a beginning of what it would trace undisturbed. -/
  beginning : ∃ rounds, traced part <+: whole rounds
  /-- Each call was made for an effect of the undisturbed run. -/
  calls : ∃ rounds, made ≤ (effectsOf (whole rounds)).length
  /-- Each call has left its effect, but for one with which the run fails. That one has done so
  only if it has performed its effect. -/
  performed : made = (effectsOf part).length ∧
      (∀ time error, ending ≠ some (time, .failed error)) ∨
    ∃ effect time error, (device (first + made) effect).answer ≠ .done ∧
      made = (effectsOf part).length +
        (if (device (first + made) effect).answer.performed then 0 else 1) ∧
      ending = some (time, .failed error)
  /-- If the `k`-th call fails, the run has traced all that comes before the `k`-th effect, and
  the effect only if it was performed all the same. No call follows, and the run fails in the
  instruction that is in progress there. -/
  failed : ∀ k before time effect cause performed, IsEffect whole k before time effect → k ≤ made →
    (device (first + k) effect).answer = .failed cause performed →
      traced part = before ++ (if performed then [(time, .performed effect)] else []) ∧
        made = k ∧ ∃ command line, inProgress? before = some (line, command) ∧
          ending = some (time, .failed (.effect command line cause))
  /-- If it crashes, the run has traced the same, no call follows, and the run is aborted. -/
  crashed : ∀ k before time effect performed, IsEffect whole k before time effect → k ≤ made →
    (device (first + k) effect).answer = .crashed performed →
      traced part = before ++ (if performed then [(time, .performed effect)] else []) ∧
        made = k ∧ ending = some (time, .crashed)
  /-- If a stop is asked for in a call that performs its effect, what follows comes at the same
  time with no instruction begun. -/
  stopped : ∀ k before time effect, IsEffect whole k before time effect → k ≤ made →
    (device (first + k) effect).answer = .done → (device (first + k) effect).stops = true →
      ∃ later, traced part = before ++ (time, .performed effect) :: later ∧
        ∀ entry ∈ later, entry.1 = time ∧ entry.2.begun? = none

namespace Course

variable (r : Course) (first : Nat) (earlier : List (Nat × Event)) (ideal : Engine)

/-- What comes of a call that is refused, behind what was answered: the run has asked for the effect
and traced it only if it was performed all the same, and the run has ended. -/
structure LastRefused (state : State) (answered trace asked : List (Nat × Event)) (effect : Effect)
    (outcome : Outcome) : Prop where
  point : state.point = .ended outcome
  asked : asked = answered ++ [(state.stage.now, .performed effect)]
  trace : trace = answered ++ (if (r.env.device state.stage.calls effect).answer.performed then
    [(state.stage.now, .performed effect)] else [])
  refused : outcome.Refused (r.env.device state.stage.calls effect).answer
  inside : ∀ command line cause, outcome = .failed (.effect command line cause) →
    inProgress? answered = some (line, command)

/-- What a run has traced, what of it was answered as it should be, and what the run has asked for.
The three differ only by an effect that was refused. -/
structure Asks (state : State) (answered trace asked : List (Nat × Event)) : Prop where
  here : state.stage.trace = earlier ++ trace
  calls : state.stage.calls = first + (effectsOf asked).length
  ahead : ∃ state, r.undisturbed.Leads ideal state ∧ earlier ++ asked <+: state.stage.trace
  replies : ∀ before time effect after, answered = before ++ (time, .performed effect) :: after →
    (r.env.device (first + (effectsOf before).length + 1) effect).answer = .done ∧
      ((r.env.device (first + (effectsOf before).length + 1) effect).stops = true →
        time = state.stage.now ∧ ∀ entry ∈ after, entry.1 = time ∧ entry.2.begun? = none)
  refused : (trace = answered ∧ asked = answered ∧
      ∀ error, state.point ≠ .ended (.failed error)) ∨
    ∃ effect outcome, r.LastRefused state answered trace asked effect outcome

variable {r first earlier ideal} {s : Stage} {state : State}
  {answered trace asked : List (Nat × Event)}

/-- The replies to what a run has traced, without what concerns the stop alone. -/
theorem Followed.answers (h : r.Followed first earlier s trace) (before : List (Nat × Event))
    (time : Nat) (effect : Effect) (after : List (Nat × Event))
    (hsplit : trace = before ++ (time, .performed effect) :: after) :
    (r.env.device (first + (effectsOf before).length + 1) effect).answer = .done ∧
      ((r.env.device (first + (effectsOf before).length + 1) effect).stops = true →
        time = s.now ∧ ∀ entry ∈ after, entry.1 = time ∧ entry.2.begun? = none) := by
  obtain ⟨hdone, hstop⟩ := h.replies before time effect after hsplit
  refine ⟨hdone, fun hstops => ?_⟩
  obtain ⟨-, rfl, hafter⟩ := hstop hstops
  exact ⟨rfl, hafter⟩

/-- A run beside the undisturbed one has asked for what that one performs. -/
theorem Accompanied.asks (h : r.Accompanied first earlier ideal state) :
    ∃ answered trace asked, r.Asks first earlier ideal state answered trace asked := by
  cases h with
  | abreast s t point trace h hgoes htime hbegun hleads =>
    refine ⟨trace, trace, trace, h.here, h.calls, ⟨_, hleads, ?_⟩, h.answers, .inl ⟨rfl, rfl, ?_⟩⟩
    · exact h.there ▸ trace_final ⟨t, point⟩
    · rintro error rfl
      exact htime
  | apart s point trace h hpoint hleads =>
    refine ⟨trace, trace, trace, h.here, h.calls, hleads, h.answers, .inl ⟨rfl, rfl, ?_⟩⟩
    rintro error rfl
    rcases hpoint with ⟨outcome, houtcome, hgood⟩ | ⟨-, hidle⟩
    · exact hgood error (Point.ended.inj houtcome).symm
    · exact hidle
  | refused s trace effect outcome h hrefused hbegun hleads =>
    have hnow : (s.call r.env.device effect).now = s.now := s.now_call r.env.device effect
    have hcalls : (s.call r.env.device effect).calls = s.calls + 1 :=
      s.calls_call r.env.device effect
    refine ⟨trace, _, _, ?_, ?_, hleads, ?_, .inr ⟨effect, outcome, rfl, ?_, rfl, ?_, hbegun⟩⟩
    · dsimp only
      rw [Stage.trace_call, h.here, hnow, hcalls, List.append_assoc]
      rfl
    · dsimp only
      rw [hcalls, h.calls, effectsOf_concat, List.length_append]
      rfl
    · dsimp only
      rw [hnow]
      exact h.answers
    · dsimp only
      rw [hnow]
    · dsimp only
      rw [hcalls]
      exact hrefused

/-- Behind what was answered there is at most one effect in the trace, and it comes now. -/
theorem Asks.behind (h : r.Asks first earlier ideal state answered trace asked) :
    ∃ last, trace = answered ++ last ∧
      ∀ entry ∈ last, entry.1 = state.stage.now ∧ entry.2.begun? = none := by
  rcases h.refused with ⟨rfl, -⟩ | ⟨effect, outcome, hlast⟩
  · exact ⟨[], (List.append_nil _).symm, by simp⟩
  · refine ⟨_, hlast.trace, ?_⟩
    split <;> simp [Event.begun?]

/-- What was traced was asked for. -/
theorem Asks.trace_prefix (h : r.Asks first earlier ideal state answered trace asked) :
    trace <+: asked := by
  rcases h.refused with ⟨rfl, rfl, -⟩ | ⟨effect, outcome, hlast⟩
  · exact List.prefix_rfl
  · rw [hlast.trace, hlast.asked]
    split
    · exact List.prefix_rfl
    · rw [List.append_nil]
      exact List.prefix_append _ _

/-- A call that was made for an effect of the undisturbed run was answered, or it was the last
one and was refused. -/
theorem Asks.cases (h : r.Asks first earlier ideal state answered trace asked)
    {before later : List (Nat × Event)} {time : Nat} {effect : Effect}
    (hasked : asked = before ++ (time, .performed effect) :: later) :
    (∃ after, answered = before ++ (time, .performed effect) :: after) ∨
      answered = before ∧ time = state.stage.now ∧
        ∃ outcome, r.LastRefused state answered trace asked effect outcome := by
  rcases h.refused with ⟨rfl, rfl, -⟩ | ⟨effect', outcome, hlast⟩
  · exact .inl ⟨later, hasked⟩
  · rcases split_concat (hlast.asked.symm.trans hasked) with ⟨hbefore, hentry, -⟩ | ⟨rest, -, hrest⟩
    · obtain ⟨htime, heffect⟩ := Prod.mk.inj hentry
      obtain rfl := Event.performed.inj heffect
      exact .inr ⟨hbefore, htime.symm, outcome, hlast⟩
    · exact .inl ⟨rest, hrest⟩

end Course

/-- A beginning has no more effects. -/
theorem length_effectsOf_le {first second : List (Nat × Event)} (h : first <+: second) :
    (effectsOf first).length ≤ (effectsOf second).length :=
  (h.filterMap _).length_le

/-- What is a beginning of a growing list contains each effect of it that it has as many of. -/
theorem exists_of_isEffect {whole : Nat → List (Nat × Event)}
    (hmono : ∀ rounds rounds', rounds ≤ rounds' → whole rounds <+: whole rounds')
    {asked before : List (Nat × Event)} {k time rounds : Nat} {effect : Effect}
    (hasked : asked <+: whole rounds) (hk : IsEffect whole k before time effect)
    (hle : k ≤ (effectsOf asked).length) :
    ∃ later, asked = before ++ (time, .performed effect) :: later := by
  obtain ⟨hcount, rounds', after, hwhole⟩ := hk
  -- Both are beginnings of what there is after the larger number of rounds.
  have hasked' := hasked.trans (hmono _ _ (Nat.le_max_left rounds rounds'))
  have hbefore : before ++ [(time, .performed effect)] <+: whole (max rounds rounds') := by
    refine List.IsPrefix.trans ⟨after, ?_⟩ (hmono _ _ (Nat.le_max_right rounds rounds'))
    rw [hwhole, List.append_assoc]
    rfl
  rcases List.prefix_or_prefix_of_prefix hbefore hasked' with ⟨later, hlater⟩ | hshort
  · exact ⟨later, by rw [← hlater, List.append_assoc]; rfl⟩
  · rcases List.prefix_concat_iff.mp hshort with rfl | hshorter
    · exact ⟨[], rfl⟩
    · have hfewer := length_effectsOf_le hshorter
      omega

/-- Every effect is traced. -/
theorem effectsOf_traced (events : List (Nat × Event)) :
    effectsOf (traced events) = effectsOf events := by
  rw [effectsOf, traced, List.filterMap_filter]
  apply List.filterMap_congr
  rintro ⟨time, event⟩ -
  cases event <;> rfl

namespace Course

variable {r : Course} {first : Nat} {earlier answered trace asked part : List (Nat × Event)}
  {ideal : Engine} {state : State} {whole : Nat → List (Nat × Event)}

/-- What was answered was performed, with or without a stop. -/
theorem Asks.reply (h : r.Asks first earlier ideal state answered trace asked) {k time : Nat}
    {before after : List (Nat × Event)} {effect : Effect}
    (hk : IsEffect whole k before time effect)
    (hsplit : answered = before ++ (time, .performed effect) :: after) :
    (r.env.device (first + k) effect).answer = .done ∧
      ((r.env.device (first + k) effect).stops = true →
        time = state.stage.now ∧ ∀ entry ∈ after, entry.1 = time ∧ entry.2.begun? = none) := by
  rw [← hk.count, ← Nat.add_assoc]
  exact h.replies before time effect after hsplit

/-- The call with a number was answered, or it was the last one and was refused. -/
theorem Asks.call (h : r.Asks first earlier ideal state answered trace asked)
    (hmono : ∀ rounds rounds', rounds ≤ rounds' → whole rounds <+: whole rounds') {rounds : Nat}
    (hasked : asked <+: whole rounds) {k time : Nat} {before : List (Nat × Event)}
    {effect : Effect} (hk : IsEffect whole k before time effect)
    (hle : k ≤ (effectsOf asked).length) :
    (∃ after, answered = before ++ (time, .performed effect) :: after) ∨
      trace = before ++ (if (r.env.device (first + k) effect).answer.performed then
          [(time, .performed effect)] else []) ∧
        (effectsOf asked).length = k ∧ ∃ outcome, state.ending? = some (time, outcome) ∧
        outcome.Refused (r.env.device (first + k) effect).answer ∧
        ∀ command line cause, outcome = .failed (.effect command line cause) →
          inProgress? before = some (line, command) := by
  obtain ⟨later, hlater⟩ := exists_of_isEffect hmono hasked hk hle
  rcases h.cases hlater with htraced | ⟨rfl, rfl, outcome, hlast⟩
  · exact .inl htraced
  · have hmade : (effectsOf asked).length = k := by
      rw [hlast.asked, effectsOf_concat, List.length_append, ← hk.count]
      rfl
    have hcalls : state.stage.calls = first + k := by rw [h.calls, hmade]
    rw [← hcalls]
    exact .inr ⟨hlast.trace, hmade, outcome,
      State.ending?_eq_some_iff.mpr ⟨hlast.point, rfl⟩, hlast.refused, hlast.inside⟩

/-- A run that has asked for what the undisturbed run performs is truncated as it should be. -/
theorem Asks.truncated (h : r.Asks first earlier ideal state answered trace asked)
    (hmono : ∀ rounds rounds', rounds ≤ rounds' → whole rounds <+: whole rounds') {rounds : Nat}
    (hasked : asked <+: whole rounds) (hpart : traced part = trace) :
    Truncated r.env.device whole first (effectsOf asked).length part state.ending? where
  beginning := by
    exact ⟨rounds, hpart ▸ h.trace_prefix.trans hasked⟩
  calls := ⟨rounds, length_effectsOf_le hasked⟩
  performed := by
    rw [← effectsOf_traced part, hpart]
    rcases h.refused with ⟨rfl, rfl, hgood⟩ | ⟨effect, outcome, hlast⟩
    · refine .inl ⟨rfl, ?_⟩
      intro time error hending
      exact hgood error (State.ending?_eq_some_iff.mp hending).1
    · obtain ⟨error, rfl, hanswer⟩ := hlast.refused.exists_error
      refine .inr ⟨effect, state.stage.now, error, ?_, ?_,
        State.ending?_eq_some_iff.mpr ⟨hlast.point, rfl⟩⟩
      · rwa [← h.calls]
      · rw [← h.calls, hlast.asked, hlast.trace, effectsOf_concat]
        split
        · rw [effectsOf_concat]
          rfl
        · rw [List.append_nil, List.length_append]
          rfl
  failed := by
    intro k before time effect cause performed hk hle hfailed
    rcases h.call hmono hasked hk hle with ⟨after, hsplit⟩ | ⟨htrace, hmade, _, hend, href, hin⟩
    · -- A call that was answered as it should be has not failed.
      have hdone := (h.reply hk hsplit).1
      rw [hfailed] at hdone
      cases hdone
    · rw [hfailed] at href htrace
      cases href with
      | failed command line _ _ hcause =>
        obtain ⟨rfl, -⟩ := Answer.failed.inj hcause
        exact ⟨hpart.trans htrace, hmade, command, line, hin command line cause rfl, hend⟩
      | crashed _ hcrash => cases hcrash
  crashed := by
    intro k before time effect performed hk hle hcrashed
    rcases h.call hmono hasked hk hle with ⟨after, hsplit⟩ | ⟨htrace, hmade, _, hend, href, -⟩
    · have hdone := (h.reply hk hsplit).1
      rw [hcrashed] at hdone
      cases hdone
    · rw [hcrashed] at href htrace
      cases href with
      | failed command line _ _ hcause => cases hcause
      | crashed => exact ⟨hpart.trans htrace, hmade, hend⟩
  stopped := by
    intro k before time effect hk hle hdone hstop
    rcases h.call hmono hasked hk hle with ⟨after, hsplit⟩ | ⟨-, -, _, -, href, -⟩
    · obtain ⟨htime, hafter⟩ := (h.reply hk hsplit).2 hstop
      obtain ⟨last, hbehind, hlast⟩ := h.behind
      refine ⟨after ++ last, ?_, List.forall_mem_append.mpr ⟨hafter, htime ▸ hlast⟩⟩
      rw [hpart, hbehind, hsplit, List.append_assoc]
      rfl
    · -- An effect is not refused that was performed as it should be.
      obtain ⟨-, -, hanswer⟩ := href.exists_error
      exact absurd hdone hanswer

end Course

namespace Engine

/-- An undisturbed engine that has started a script stands at the beginning of the run. -/
theorem leads_launch (e : Engine) (script : Script) (lineDelay : Span) :
    (e.courseOf script lineDelay).undisturbed.Leads (e.undisturbed.launch script lineDelay)
      ⟨(e.launch script lineDelay).stage, .resting .fresh⟩ := by
  refine ⟨0, ?_⟩
  exact .after (e.undisturbed.launch script lineDelay)
    ((e.courseOf script lineDelay).undisturbed.worker .fresh)
    ((e.launch script lineDelay).stage, .suspended .fresh) rfl rfl rfl rfl rfl

/-- An interruption only truncates. A script of built-in commands was started on an idle engine,
on a device that may fail, crash or ask for a stop in any call, and stops may be asked for from
outside at any time. Whatever is done with the engine, the run has made a number of calls, and
what it has traced is a beginning of what the same run traces undisturbed: up to the effect whose
call fails or crashes, with which the run ends, and as far as the end of the instruction in whose
call a stop is asked for. -/
theorem interruption_truncates {script : Script} (hscript : script.IsBuiltin) {e : Engine}
    (hidle : e.isRunning = false) (lineDelay : Span) (ops : List Operation) :
    let started := (e.start script lineDelay).1
    let after := started.performAll ops
    ∃ part ending made, RunSoFar started after part ending ∧
      (after.runs = started.runs → after.stage.calls = e.stage.calls + made) ∧
      Truncated e.surroundings.device (e.undisturbedTrace script lineDelay) e.stage.calls made
        part ending := by
  intro started after
  obtain ⟨state, part, hseen⟩ := seen hidle script lineDelay ops
  have hstarted : started = e.launch script lineDelay := by
    show (e.start script lineDelay).1 = _
    rw [start_of_idle hidle]
  have hideal :
      (e.undisturbed.start script lineDelay).1 = e.undisturbed.launch script lineDelay := by
    rw [start_of_idle (show e.undisturbed.running = false from hidle)]
  have hreaches := hseen.reaches
  rw [show (e.start script lineDelay).1 = _ from hstarted] at hreaches
  have haccompanied := hreaches.accompanied hscript (e.leads_launch script lineDelay) rfl
  obtain ⟨answered, trace, asked, hasks⟩ := haccompanied.asks
  have hcalls : state.stage.calls = e.stage.calls + (effectsOf asked).length := hasks.calls
  -- What the undisturbed run comes to trace, it has traced after some rounds.
  obtain ⟨ahead, ⟨rounds, hstands⟩, hahead⟩ := hasks.ahead
  have hasked : asked <+: e.undisturbedTrace script lineDelay rounds := by
    have hdrop := hahead.drop (e.launch script lineDelay).stage.trace.length
    rw [List.drop_left] at hdrop
    rw [undisturbedTrace, hideal, hstands.trace]
    exact hdrop
  have hpart : traced part = trace := by
    have htrace : state.stage.trace = started.stage.trace ++ traced part := by
      show traced state.stage.history.reverse = traced started.events ++ traced part
      rw [hseen.history, traced, traced, traced, List.filter_append]
    rw [hasks.here, hstarted] at htrace
    exact (List.append_cancel_left htrace).symm
  refine ⟨part, state.ending?, _, hseen.runSoFar, ?_, hasks.truncated ?_ hasked hpart⟩
  · exact fun hruns => (hseen.calls_eq hruns).trans hcalls
  · exact fun rounds rounds' h => e.undisturbedTrace_mono script lineDelay h

/-- The third of six calls fails, after a pause: what was traced before it stays, and the click
that would follow is never made. -/
theorem interruption_truncates_third_call : ∃ script,
    Catalog.builtin.compile ["KeyPressText ab 5", "MouseClick"] = .ok script ∧
    (let device call (_ : Effect) := if call = 3 then Reply.failed "stuck" else .done
     let e := Engine.new .zero { Surroundings.plain with device }
     let started := (e.start script .zero).1
     let after := started.performAll [.advance ⟨10000000⟩ 10]
     (∃ part ending made, RunSoFar started after part ending ∧
        (after.runs = started.runs → after.stage.calls = e.stage.calls + made) ∧
        Truncated e.surroundings.device (e.undisturbedTrace script .zero) e.stage.calls made
          part ending) ∧
      after.events = [(0, .started 2 0), (0, .executing 1 "KeyPressText"),
        (0, .performed (.key (.char 'a') .down)), (0, .performed (.key (.char 'a') .up)),
        (5, .refused (.key (.char 'b') .down)),
        (5, .ended (.failed (.effect "KeyPressText" 1 "stuck")))] ∧
      e.undisturbedTrace script .zero 10 = [(0, .executing 1 "KeyPressText"),
        (0, .performed (.key (.char 'a') .down)), (0, .performed (.key (.char 'a') .up)),
        (5, .performed (.key (.char 'b') .down)), (5, .performed (.key (.char 'b') .up)),
        (5, .executing 2 "MouseClick"), (5, .performed (.button .left .down)),
        (5, .performed (.button .left .up))]) := by
  have hcompile : Catalog.builtin.compile ["KeyPressText ab 5", "MouseClick"] =
      .ok ⟨[⟨1, ["ab", "5"], .typeText "ab" ⟨5000000⟩⟩, ⟨2, [], .mouseClick .left⟩], 2⟩ := by
    with_unfolding_all rfl
  have hcompiled : Script.IsCompiled _ := ⟨_, hcompile⟩
  refine ⟨_, hcompile, ?_, ?_, ?_⟩
  · exact interruption_truncates hcompiled.isBuiltin rfl _ _
  · decide +kernel
  · decide +kernel

end Engine

end InputScript
