import InputScript.Proofs.Command.Nesting
import InputScript.Proofs.Engine.Undisturbed

/-!
# `InputScript.Proofs.Engine.Abreast`: a run beside the undisturbed one

A run whose device may fail, crash or ask for a stop is followed beside the undisturbed run of
the same script. As long as nothing has interrupted it, it goes abreast of that run, step by
step and at the same times (`Course.Abreast`). Where the two part, the run has traced a beginning
of what the undisturbed run traces. After a stop was asked for it may still perform effects of
the present instruction, and the undisturbed run performs these as well. So does a gesture whose
pause is over at the very time of a stop.

* `Program.Gesture.run_beside`: a gesture keeps the two runs beside each other.
* `Course.Accompanied.step`: so does every step of a run.
* `Course.Reaches.accompanied`: so wherever a run stands, it is beside the undisturbed one.
-/

set_option autoImplicit false

namespace InputScript

open Program (Gesture)

/-! ### What a run has traced, and what the device has answered -/

namespace Course

variable (r : Course) (first : Nat) (earlier : List (Nat × Event))

/-- What a run has traced since it began, when the device had been asked `first` times. Each
effect was performed by a call that did not fail, and those after a call in which a stop was asked
for belong to the same time, with no instruction begun. -/
structure Followed (s : Stage) (trace : List (Nat × Event)) : Prop where
  here : s.trace = earlier ++ trace
  calls : s.calls = first + (effectsOf trace).length
  replies : ∀ before time effect after, trace = before ++ (time, .performed effect) :: after →
    (r.env.device (first + (effectsOf before).length + 1) effect).answer = .done ∧
      ((r.env.device (first + (effectsOf before).length + 1) effect).stops = true →
        s.cancelled = true ∧ time = s.now ∧
          ∀ entry ∈ after, entry.1 = s.now ∧ entry.2.begun? = none)

/-- A run goes abreast of the undisturbed one: the stages `s` and `t` differ only in what a stop
or a start that was turned away has left in them, and perhaps in the time. -/
structure Abreast (s t : Stage) (trace : List (Nat × Event)) : Prop
    extends Followed r first earlier s trace where
  draws : s.draws = t.draws
  transfer : s.transfer = t.transfer
  goes : t.cancelled = false
  there : t.trace = earlier ++ trace

variable {r first earlier} {s s' t : Stage} {trace : List (Nat × Event)}

/-- What was traced concerns only the trace, the calls, the time and the flag. -/
theorem Followed.of_eq (h : r.Followed first earlier s trace) (htrace : s'.trace = s.trace)
    (hcalls : s'.calls = s.calls) (hnow : s.cancelled = true → s'.now = s.now)
    (hcancelled : s.cancelled = true → s'.cancelled = true) :
    r.Followed first earlier s' trace where
  here := htrace.trans h.here
  calls := hcalls.trans h.calls
  replies := by
    intro before time effect after hsplit
    obtain ⟨hdone, hstop⟩ := h.replies before time effect after hsplit
    refine ⟨hdone, fun hstops => ?_⟩
    obtain ⟨hflag, htime, hafter⟩ := hstop hstops
    rw [← hnow hflag] at htime hafter
    exact ⟨hcancelled hflag, htime, hafter⟩

/-- One more entry of the trace: an effect that was performed, or the beginning of an
instruction while no stop was asked for. -/
theorem Followed.record (h : r.Followed first earlier s trace) {event : Event}
    (hnow : s'.now = s.now) (hcancelled : s.cancelled = true → s'.cancelled = true)
    (htrace : s'.trace = s.trace ++ [(s.now, event)])
    (hcalls : s'.calls = s.calls + event.effect?.toList.length)
    (hbegun : s.cancelled = true → event.begun? = none)
    (hreply : ∀ effect, event = .performed effect →
      (s.reply r.env.device effect).answer = .done ∧
        ((s.reply r.env.device effect).stops = true → s'.cancelled = true)) :
    r.Followed first earlier s' (trace ++ [(s.now, event)]) where
  here := by rw [htrace, h.here, List.append_assoc]
  calls := by
    rw [hcalls, h.calls, effectsOf_concat, List.length_append, Nat.add_assoc]
  replies := by
    intro before time effect after hsplit
    rcases split_concat hsplit with ⟨rfl, hentry, rfl⟩ | ⟨rest, rfl, htrace'⟩
    · -- The new entry is the effect in question.
      obtain ⟨rfl, rfl⟩ := Prod.mk.inj hentry
      obtain ⟨hdone, hstop⟩ := hreply effect rfl
      rw [← h.calls, hnow]
      exact ⟨hdone, fun hstops => ⟨hstop hstops, rfl, by simp⟩⟩
    · obtain ⟨hdone, hstop⟩ := h.replies before time effect rest htrace'
      refine ⟨hdone, fun hstops => ?_⟩
      obtain ⟨hflag, htime, hrest⟩ := hstop hstops
      refine ⟨hcancelled hflag, htime.trans hnow.symm, ?_⟩
      intro entry hentry
      rw [hnow]
      rcases List.mem_append.mp hentry with hentry | hentry
      · exact hrest entry hentry
      · rw [List.mem_singleton.mp hentry]
        exact ⟨rfl, hbegun hflag⟩

end Course

/-! ### A gesture beside the same gesture undisturbed -/

/-- A call leaves its effect in the trace if it has performed it. -/
theorem Stage.trace_call (s : Stage) (device : Device) (effect : Effect) :
    (s.call device effect).trace = s.trace ++
      if (s.reply device effect).answer.performed then [(s.now, .performed effect)] else [] := by
  have hcalls : traced (s.callEvents device effect) =
      if (s.reply device effect).answer.performed then [(s.now, .performed effect)] else [] := by
    rw [callEvents, Event.ofAnswer]
    split <;> split <;> rfl
  rw [trace, reverse_history_call, traced, List.filter_append, ← hcalls]
  rfl

/-- A stop that is asked for is no part of the trace. -/
theorem Stage.trace_requestStop (s : Stage) : s.requestStop.trace = s.trace := by
  have hrecord := s.trace_record .stopRequested
  rwa [traced, List.filter_cons_of_neg (by simp [Event.isTraced]), List.filter_nil,
    List.append_nil] at hrecord

namespace Course

variable (r : Course) (first : Nat) (earlier : List (Nat × Event))

/-- Where a program has come to a halt, beside the halt of the same program undisturbed. The
instruction in progress is given. -/
inductive Beside (begun : Option (Nat × String)) : Stage × Halt → Stage × Halt → Prop where
  /-- Nothing has interrupted it. -/
  | abreast (s t : Stage) (trace : List (Nat × Event)) (halt : Halt)
      (h : r.Abreast first earlier s t trace) (hgoes : s.cancelled = false)
      (hnow : s.now = t.now) (hbegun : inProgress? trace = begun)
      (hhalt : halt = .returned ∨ ∃ wake rest, halt = .asleep wake rest ∧ s.now ≤ wake) :
      Beside begun (s, halt) (t, halt)
  /-- A stop was asked for, and it has returned at once or in the end. -/
  | stopped (s t : Stage) (trace : List (Nat × Event)) (halt : Halt)
      (h : r.Followed first earlier s trace) (hcancelled : s.cancelled = true)
      (hbehind : earlier ++ trace <+: t.trace) : Beside begun (s, .returned) (t, halt)
  /-- The device has refused a call. -/
  | refused (s t : Stage) (trace : List (Nat × Event)) (halt halt' : Halt) (effect : Effect)
      (h : r.Followed first earlier s trace) (hbegun : inProgress? trace = begun)
      (hrefused : halt.IsRefusal (s.reply r.env.device effect).answer)
      (hbehind : earlier ++ (trace ++ [(s.now, .performed effect)]) <+: t.trace) :
      Beside begun (s.call r.env.device effect, halt) (t, halt')

variable {r first earlier} {s s' t : Stage} {trace : List (Nat × Event)}

/-- The undisturbed run performs an effect that is asked for at the same time. -/
theorem Abreast.there_call (h : r.Abreast first earlier s t trace) (hnow : s.now = t.now)
    (effect : Effect) : (t.call r.undisturbed.env.device effect).trace =
      earlier ++ (trace ++ [(s.now, .performed effect)]) := by
  rw [Stage.trace_call, h.there, hnow, List.append_assoc]
  rfl

/-- Two runs that perform the same effect at the same time stay abreast, also when a stop is
asked for meanwhile. -/
theorem Abreast.call (h : r.Abreast first earlier s t trace) (hnow : s.now = t.now)
    {effect : Effect} (hdone : (s.reply r.env.device effect).answer = .done) :
    r.Abreast first earlier (s.call r.env.device effect)
      (t.call r.undisturbed.env.device effect) (trace ++ [(s.now, .performed effect)]) := by
  have htrace : (s.call r.env.device effect).trace =
      s.trace ++ [(s.now, .performed effect)] := by
    rw [Stage.trace_call, hdone]
    rfl
  refine ⟨h.record (s.now_call _ _) ?_ htrace ?_ (fun _ => rfl) ?_, ?_, ?_, ?_,
    h.there_call hnow effect⟩
  · intro hcancelled
    simp [hcancelled]
  · exact s.calls_call _ _
  · intro effect' heffect
    obtain rfl := Event.performed.inj heffect
    refine ⟨hdone, fun hstops => ?_⟩
    simp [hstops]
  · simp [h.draws]
  · simp [h.transfer]
  · exact h.goes

end Course

open Course (Beside)

/-- A gesture keeps a run beside the undisturbed one. -/
theorem Program.Gesture.run_beside {r : Course} {first : Nat} {earlier trace : List (Nat × Event)}
    {begun : Option (Nat × String)} {p : Program} (hp : Gesture p) {s t : Stage}
    (h : r.Abreast first earlier s t trace) (hnow : s.now = t.now)
    (hbegun : inProgress? trace = begun) :
    Beside r first earlier begun (p.run r.env s) (p.run r.undisturbed.env t) := by
  -- Where the run is to stop, the undisturbed run has nothing less in its trace.
  have hbehind {s t : Stage} {trace : List (Nat × Event)} (h : r.Abreast first earlier s t trace)
      (p : Program) : earlier ++ trace <+: (p.run r.undisturbed.env t).1.trace := by
    rw [← h.there]
    exact (p.run_steps r.undisturbed.env t).trace_grows
  induction hp generalizing s t trace with
  | done =>
    cases hcancelled : s.cancelled with
    | true => exact .stopped s t trace _ h.toFollowed hcancelled (hbehind h .done)
    | false => exact .abreast s t trace _ h hcancelled hnow hbegun (.inl rfl)
  | perform effect next _ ih =>
    have hnext : (Program.call effect next .fail).run r.undisturbed.env t =
        next.run r.undisturbed.env (t.call r.undisturbed.env.device effect) := rfl
    have hbegun' : inProgress? (trace ++ [(s.now, .performed effect)]) = begun :=
      (Engine.inProgress?_append (by simp [Event.begun?])).trans hbegun
    have hahead : earlier ++ (trace ++ [(s.now, .performed effect)]) <+:
        (next.run r.undisturbed.env (t.call r.undisturbed.env.device effect)).1.trace := by
      rw [← h.there_call hnow effect]
      exact (next.run_steps r.undisturbed.env _).trace_grows
    rw [hnext, Program.run]
    cases hanswer : (s.reply r.env.device effect).answer with
    | done =>
      refine ih (h.call hnow hanswer) ?_ hbegun'
      rw [Stage.now_call]
      exact hnow
    | failed cause performed =>
      exact .refused s _ trace _ _ effect h.toFollowed hbegun ⟨performed, hanswer⟩ hahead
    | crashed performed =>
      exact .refused s _ trace _ _ effect h.toFollowed hbegun ⟨performed, hanswer⟩ hahead
  | pause span next hcut _ ih =>
    cases hcancelled : s.cancelled with
    | true =>
      -- The pause is cut short.
      rw [Program.run, Sleep.begin, if_pos hcancelled]
      dsimp only
      rw [hcut]
      exact .stopped s _ trace _ h.toFollowed hcancelled (hbehind h _)
    | false =>
      have htimer : r.undisturbed.env.timer = r.env.timer := rfl
      rw [Program.run, Program.run, hcancelled, h.goes, ← hnow, htimer]
      have hsleep := Sleep.begins r.env.timer false span s.now
      generalize Sleep.begin r.env.timer false span s.now = sleep at hsleep ⊢
      cases hsleep with
      | cut hfalse => cases hfalse
      | skipped => exact ih h hnow hbegun
      | lasts =>
        exact .abreast s t trace _ h hcancelled hnow hbegun
          (.inr ⟨_, _, rfl, Nat.le_add_right _ _⟩)
  | choose low high next _ ih =>
    rw [Program.run, Program.run, ← h.draws]
    refine ih _ ?_ hnow hbegun
    exact ⟨h.of_eq rfl rfl (fun _ => rfl) id, rfl, h.transfer, h.goes, h.there⟩

/-! ### A run beside the undisturbed run -/

namespace Point

/-- When the two runs may stand at a point: at the same time, unless the worker sleeps. Where
they are over they are no longer abreast. -/
def Timely (there here : Nat) : Point → Prop
  | .ended _ => False
  | .resting phase => there ≤ here ∧ (∀ wake, phase.wake? = some wake → here ≤ wake) ∧
      (phase.wake? = none → here = there)
  | _ => here = there

/-- The instruction that a point lies inside is in progress by the trace. -/
def Begun (script : Script) (trace : List (Nat × Event)) : Point → Prop
  | .resting (.inCommand index _ _) => ∃ i, script.instructions[index]? = some i ∧
      inProgress? trace = some (i.line, i.name)
  | .inside index _ => ∃ i, script.instructions[index]? = some i ∧
      inProgress? trace = some (i.line, i.name)
  | _ => True

/-- Where a run that is to stop may still be abreast of the undisturbed one: in a pause of a
command that may be over at the time of the stop, and in what is left of its gesture then. -/
def Lingers : Point → Prop
  | .resting (.inCommand ..) => True
  | .inside _ program => Gesture program
  | _ => False

/-- From such a point a run that is to stop does nothing but end. -/
def IsIdle (s : Stage) : Point → Prop
  | .ended _ => False
  | .inside _ program => program = .done ∧ s.transfer = none
  | .resting phase => ¬(Point.resting phase).Lingers
  | _ => True

end Point

namespace Course

variable (r : Course) (first : Nat) (earlier : List (Nat × Event)) (ideal : Engine)

/-- A state of a run, beside the undisturbed run that an engine makes. -/
inductive Accompanied : State → Prop where
  /-- Nothing has interrupted the run, or a stop came in the pause of a gesture. -/
  | abreast (s t : Stage) (point : Point) (trace : List (Nat × Event))
      (h : r.Abreast first earlier s t trace) (hgoes : s.cancelled = true → point.Lingers)
      (htime : point.Timely t.now s.now) (hbegun : point.Begun r.script trace)
      (hleads : r.undisturbed.Leads ideal (r.undisturbed.final ⟨t, point⟩)) :
      Accompanied ⟨s, point⟩
  /-- The run has ended or is about to, and the undisturbed run goes on. -/
  | apart (s : Stage) (point : Point) (trace : List (Nat × Event))
      (h : r.Followed first earlier s trace)
      (hpoint : (∃ outcome, point = .ended outcome ∧ ∀ error, outcome ≠ .failed error) ∨
        s.cancelled = true ∧ point.IsIdle s)
      (hleads : ∃ state, r.undisturbed.Leads ideal state ∧
        earlier ++ trace <+: state.stage.trace) : Accompanied ⟨s, point⟩
  /-- The run was refused an effect, which the undisturbed run performs. -/
  | refused (s : Stage) (trace : List (Nat × Event)) (effect : Effect) (outcome : Outcome)
      (h : r.Followed first earlier s trace)
      (hrefused : outcome.Refused (s.reply r.env.device effect).answer)
      (hbegun : ∀ command line cause, outcome = .failed (.effect command line cause) →
        inProgress? trace = some (line, command))
      (hleads : ∃ state, r.undisturbed.Leads ideal state ∧
        earlier ++ (trace ++ [(s.now, .performed effect)]) <+: state.stage.trace) :
      Accompanied ⟨s.call r.env.device effect, .ended outcome⟩

variable {r first earlier ideal} {s t : Stage} {trace : List (Nat × Event)} {point : Point}
  {state state' : State}

/-- A worker that goes on from a rest was asked to stop, or its time has come. -/
theorem Work.ready {phase : Phase} (h : r.Work ⟨s, .resting phase⟩ state') :
    phase.isReady s.cancelled s.now = true := by
  cases h with
  | skipStart | delayStart | land | landBehind => rfl
  | wakeToStart _ _ h | wakeToNext _ _ _ h => simpa [Phase.isReady, Phase.wake?] using h
  | resume _ _ _ _ _ _ h => simpa [Phase.isReady, Phase.wake?] using h

/-- When the run goes on, and not only because it is to stop, the undisturbed run does so at the
same time. -/
theorem leads_onward (hleads : r.undisturbed.Leads ideal (r.undisturbed.final ⟨t, point⟩))
    (htime : point.Timely t.now s.now) (ht : t.cancelled = false)
    (hready : ∀ phase, point = .resting phase → phase.isReady false s.now = true)
    (hover : ∀ outcome, point ≠ .ended outcome) :
    r.undisturbed.Leads ideal (r.undisturbed.onward ⟨{ t with now := s.now }, point⟩) := by
  have hsame (hnow : s.now = t.now) : ({ t with now := s.now } : Stage) = t := by rw [hnow]
  cases point with
  | resting phase =>
    obtain ⟨hfrom, hto, hyield⟩ := htime
    exact hleads.goOn ht hfrom (hready phase rfl) hto hyield
  | delaying next => exact (hsame htime).symm ▸ hleads
  | before index => exact (hsame htime).symm ▸ hleads
  | inside index p => exact (hsame htime).symm ▸ hleads
  | ended outcome => exact absurd rfl (hover outcome)

/-- A run that is not to stop is free to be anywhere. -/
theorem lingers_of_goes (hgoes : s.cancelled = false) : s.cancelled = true → point.Lingers := by
  simp [hgoes]

section Inside

variable {index : Nat} {p : Program} (h : r.Abreast first earlier s t trace)
  (hnow : s.now = t.now)
  (hleads : r.undisturbed.Leads ideal (r.undisturbed.onward ⟨t, .inside index p⟩))
  (hwork : r.Work ⟨s, .inside index p⟩ state')

include h hnow hleads hwork

/-- A gesture keeps the two runs beside each other. -/
theorem Abreast.gesture (hp : Gesture p) (hnone : s.transfer = none) {i : Instruction}
    (hi : r.script.instructions[index]? = some i)
    (hprogress : inProgress? trace = some (i.line, i.name)) :
    r.Accompanied first earlier ideal state' := by
  have hbeside := hp.run_beside h hnow hprogress
  have htransfer := (hp.run_fits r.env s).1
  have hbehind : (p.run r.undisturbed.env t).1.trace <+:
      (r.undisturbed.final ⟨t, .inside index p⟩).stage.trace := trace_final_inside hi
  generalize hthere : p.run r.undisturbed.env t = there at hbeside hbehind
  cases hwork with
  | pause s s' index i' p wake rest hi' hrun =>
    rw [hrun] at hbeside
    cases hbeside with
    | abreast _ t' trace' _ h' hgoes' hnow' hbegun' hhalt =>
      have hlater : s'.now ≤ wake := by
        rcases hhalt with hreturned | ⟨_, _, hasleep, hlater⟩
        · cases hreturned
        · cases hasleep
          exact hlater
      refine .abreast s' t' _ trace' h' (lingers_of_goes hgoes')
        ⟨Nat.le_of_eq hnow'.symm, ?_, ?_⟩ ⟨i, hi, hbegun'⟩
        (hleads.work (.pause t t' index i p wake rest hi hthere))
      · rintro _ ⟨⟩
        exact hlater
      · rintro ⟨⟩
    | refused _ _ _ _ _ _ _ _ hrefused => exact hrefused.elim
  | fail s s' index i' p cause hi' hrun =>
    obtain rfl : i = i' := Option.some.inj (hi.symm.trans hi')
    rw [hrun] at hbeside
    cases hbeside with
    | abreast _ _ _ _ _ _ _ _ hhalt => simp at hhalt
    | refused s₀ _ trace' _ _ effect h' hbegun' hrefused hahead =>
      obtain ⟨performed, hanswer⟩ := hrefused
      refine .refused s₀ trace' effect _ h' (.failed _ _ cause performed hanswer) ?_
        ⟨_, hleads, hahead.trans hbehind⟩
      intro command line cause' houtcome
      cases houtcome
      exact hbegun'
  | crash s s' index i' p hi' hrun =>
    rw [hrun] at hbeside
    cases hbeside with
    | abreast _ _ _ _ _ _ _ _ hhalt => simp at hhalt
    | refused s₀ _ trace' _ _ effect h' hbegun' hrefused hahead =>
      obtain ⟨performed, hanswer⟩ := hrefused
      refine .refused s₀ trace' effect _ h' (.crashed performed hanswer) ?_
        ⟨_, hleads, hahead.trans hbehind⟩
      intro command line cause' houtcome
      cases houtcome
  | jump s s' index i' p target hi' hrun htarget =>
    -- A gesture asks for no transfer.
    rw [hrun, hnone, htarget] at htransfer
    cases htransfer
  | stop s s' index i' p hi' hrun hstop =>
    rw [hrun, hnone, hstop] at htransfer
    cases htransfer
  | pass s s' index i' p hi' hrun hreturned hmore =>
    rw [hrun] at hbeside
    cases hbeside with
    | abreast _ t' trace' _ h' hgoes' hnow' =>
      exact .abreast s' t' _ trace' h' (lingers_of_goes hgoes') hnow' trivial
        (hleads.work (.pass t t' index i p hi hthere (h'.transfer.symm.trans hreturned) hmore))
    | stopped _ t' trace' _ h' hcancelled hahead =>
      exact .apart s' _ trace' h' (.inr ⟨hcancelled, trivial⟩) ⟨_, hleads, hahead.trans hbehind⟩
    | refused _ _ _ _ _ _ _ _ hrefused => exact hrefused.elim
  | passLast s s' index i' p hi' hrun hreturned hlast =>
    rw [hrun] at hbeside
    cases hbeside with
    | abreast _ t' trace' _ h' hgoes' hnow' =>
      exact .abreast s' t' _ trace' h' (lingers_of_goes hgoes') hnow' trivial
        (hleads.work (.passLast t t' index i p hi hthere (h'.transfer.symm.trans hreturned) hlast))
    | stopped _ t' trace' _ h' hcancelled hahead =>
      exact .apart s' _ trace' h' (.inr ⟨hcancelled, trivial⟩) ⟨_, hleads, hahead.trans hbehind⟩
    | refused _ _ _ _ _ _ _ _ hrefused => exact hrefused.elim

/-- A jump and a stop keep the two runs beside each other. -/
theorem Abreast.direct (hp : (∃ line, p = .jump line .done) ∨ p = .stop .done)
    (hgoes : s.cancelled = false) : r.Accompanied first earlier ideal state' := by
  rcases hp with ⟨line, rfl⟩ | rfl
  · cases hwork with
    | pause _ _ _ _ _ _ _ _ hrun | fail _ _ _ _ _ _ _ hrun | crash _ _ _ _ _ _ hrun =>
      cases hrun
    | stop _ _ _ _ _ _ hrun htransfer | pass _ _ _ _ _ _ hrun htransfer
    | passLast _ _ _ _ _ _ hrun htransfer =>
      cases hrun
      cases htransfer
    | jump s' s'' index i p target hi hrun htransfer =>
      cases hrun
      cases htransfer
      -- The jump is noted in the history, and not in the trace.
      have htrace (s : Stage) : ({ s with transfer := some (.line line) }.record
          (.jumped i.line line) : Stage).trace = s.trace := by
        rw [Stage.trace_record]
        exact List.append_nil _
      have hjump : r.undisturbed.Work ⟨t, .inside index (.jump line .done)⟩
          ⟨{ t with transfer := some (.line line) }.record (.jumped i.line line),
            .resting (.afterJump line)⟩ :=
        .jump t { t with transfer := some (.line line) } index i _ line hi rfl rfl
      have hbeside : r.Abreast first earlier
          ({ s with transfer := some (.line line) }.record (.jumped i.line line))
          ({ t with transfer := some (.line line) }.record (.jumped i.line line)) trace :=
        ⟨h.of_eq (htrace s) rfl (fun _ => rfl) id, h.draws, rfl, h.goes,
          (htrace t).trans h.there⟩
      refine .abreast _ _ _ trace hbeside (lingers_of_goes hgoes)
        ⟨Nat.le_of_eq hnow.symm, ?_, fun _ => hnow⟩ trivial (hleads.work hjump)
      rintro _ ⟨⟩
  · cases hwork with
    | pause _ _ _ _ _ _ _ _ hrun | fail _ _ _ _ _ _ _ hrun | crash _ _ _ _ _ _ hrun =>
      cases hrun
    | jump _ _ _ _ _ _ _ hrun htransfer | pass _ _ _ _ _ _ hrun htransfer
    | passLast _ _ _ _ _ _ hrun htransfer =>
      cases hrun
      cases htransfer
    | stop s' s'' index i p hi hrun =>
      cases hrun
      refine .apart _ _ trace (h.of_eq rfl rfl (fun _ => rfl) fun _ => rfl) (.inl ⟨_, rfl, by simp⟩)
        ⟨_, hleads.work (.stop t _ index i _ hi rfl rfl), ?_⟩
      exact h.there ▸ List.prefix_rfl

end Inside

/-- An instruction that begins is one more entry of the trace. -/
theorem Abreast.begin (h : r.Abreast first earlier s t trace) (hgoes : s.cancelled = false)
    (hnow : s.now = t.now) (index : Nat) (i : Instruction) :
    r.Abreast first earlier (s.beginInstruction index i) (t.beginInstruction index i)
      (trace ++ [(s.now, .executing i.line i.name)]) := by
  have htrace (s : Stage) : (s.beginInstruction index i).trace =
      s.trace ++ [(s.now, .executing i.line i.name)] := Stage.trace_record s _
  have hfollowed : r.Followed first earlier (s.beginInstruction index i)
      (trace ++ [(s.now, .executing i.line i.name)]) := by
    refine h.record rfl id (htrace s) rfl ?_ ?_
    · intro hcancelled
      rw [hgoes] at hcancelled
      cases hcancelled
    · intro effect heffect
      cases heffect
  refine ⟨hfollowed, h.draws, rfl, h.goes, ?_⟩
  rw [htrace, h.there, hnow, List.append_assoc]

section Steps

variable (h : r.Abreast first earlier s t trace) (hgoes : s.cancelled = false)
  (hnow : s.now = t.now)

include h hgoes hnow

/-- From a rest the two runs go on together. -/
theorem Abreast.goOn {phase : Phase} (hbegun : (Point.resting phase).Begun r.script trace)
    (hleads : r.undisturbed.Leads ideal (r.undisturbed.onward ⟨t, .resting phase⟩))
    (hwork : r.Work ⟨s, .resting phase⟩ state') : r.Accompanied first earlier ideal state' := by
  have hdue {wake : Nat} (hdue : s.cancelled = true ∨ wake ≤ s.now) : wake ≤ t.now := by
    simpa [hgoes, hnow] using hdue
  cases hwork with
  | skipStart s hskip =>
    have hempty : r.startDelay.isZero = true := by simpa [hgoes] using hskip
    exact .abreast s t _ trace h (lingers_of_goes hgoes) hnow trivial
      (hleads.work (.skipStart t (.inr hempty)))
  | delayStart s _ hlong =>
    refine .abreast s t _ trace h (lingers_of_goes hgoes)
      ⟨Nat.le_of_eq hnow.symm, ?_, by rintro ⟨⟩⟩ trivial
      (hnow ▸ hleads.work (.delayStart t h.goes hlong))
    rintro _ ⟨⟩
    exact Nat.le_add_right _ _
  | wakeToStart s wake hwake =>
    exact .abreast s t _ trace h (lingers_of_goes hgoes) hnow trivial
      (hleads.work (.wakeToStart t wake (.inr (hdue hwake))))
  | resume s index wake rest i hi hwake =>
    have hresume := hleads.work (.resume t index wake rest i hi (.inr (hdue hwake)))
    rw [h.goes, Sleep.isFull_of_goes] at hresume
    rw [hgoes, Sleep.isFull_of_goes]
    exact .abreast s t _ trace h (lingers_of_goes hgoes) hnow hbegun hresume
  | land s line hinside =>
    exact .abreast s t _ trace h (lingers_of_goes hgoes) hnow trivial
      (hleads.work (.land t line hinside))
  | landBehind s line hbehind =>
    exact .abreast s t _ trace h (lingers_of_goes hgoes) hnow trivial
      (hleads.work (.landBehind t line hbehind))
  | wakeToNext s wake next hwake =>
    exact .abreast s t _ trace h (lingers_of_goes hgoes) hnow trivial
      (hleads.work (.wakeToNext t wake next (.inr (hdue hwake))))

/-- The two runs take the same line delays. -/
theorem Abreast.delay {next : Nat}
    (hleads : r.undisturbed.Leads ideal (r.undisturbed.onward ⟨t, .delaying next⟩))
    (hwork : r.Work ⟨s, .delaying next⟩ state') : r.Accompanied first earlier ideal state' := by
  cases hwork with
  | skipDelay s next hskip =>
    have hempty : r.lineDelay.isZero = true := by simpa [hgoes] using hskip
    exact .abreast s t _ trace h (lingers_of_goes hgoes) hnow trivial
      (hleads.work (.skipDelay t next (.inr hempty)))
  | delay s next _ hlong =>
    refine .abreast s t _ trace h (lingers_of_goes hgoes)
      ⟨Nat.le_of_eq hnow.symm, ?_, by rintro ⟨⟩⟩ trivial
      (hnow ▸ hleads.work (.delay t next h.goes hlong))
    rintro _ ⟨⟩
    exact Nat.le_add_right _ _

/-- The same instruction begins in the two runs, or both are over. -/
theorem Abreast.next {index : Nat}
    (hleads : r.undisturbed.Leads ideal (r.undisturbed.onward ⟨t, .before index⟩))
    (hwork : r.Work ⟨s, .before index⟩ state') : r.Accompanied first earlier ideal state' := by
  cases hwork with
  | halt s index hcancelled =>
    rw [hgoes] at hcancelled
    cases hcancelled
  | finish s index _ hnone =>
    exact .apart s _ trace h.toFollowed (.inl ⟨_, rfl, by simp⟩)
      ⟨_, hleads.work (.finish t index h.goes hnone), h.there ▸ List.prefix_rfl⟩
  | begin s index i _ hi =>
    refine .abreast _ _ _ _ (h.begin hgoes hnow index i) (lingers_of_goes hgoes) hnow ⟨i, hi, ?_⟩
      (hleads.work (.begin t index i h.goes hi))
    simp [inProgress?, Event.begun?]

/-- While nothing has interrupted the run, every step of the worker keeps it beside the
undisturbed one. -/
theorem Abreast.work {n : Nat} (hfits : r.Fits n ⟨s, point⟩)
    (hbegun : point.Begun r.script trace)
    (hleads : r.undisturbed.Leads ideal (r.undisturbed.onward ⟨t, point⟩))
    (hwork : r.Work ⟨s, point⟩ state') : r.Accompanied first earlier ideal state' := by
  cases point with
  | resting phase => exact h.goOn hgoes hnow hbegun hleads hwork
  | delaying next => exact h.delay hgoes hnow hleads hwork
  | before index => exact h.next hgoes hnow hleads hwork
  | inside index p =>
    obtain ⟨hnone, hp, -⟩ := hfits.point
    obtain ⟨i, hi, hprogress⟩ := hbegun
    rcases hp with hgesture | hdirect
    · exact h.gesture hnow hleads hwork hgesture hnone hi hprogress
    · exact h.direct hnow hleads hwork hdirect hgoes
  | ended outcome => cases hwork

end Steps

/-- A stop came while a command was in a pause. If the pause is over at that time it may count as a
full one, and then the two runs go on together with the rest of the gesture. -/
theorem Abreast.linger {n index wake : Nat} {rest : Bool → Program}
    (hfits : r.Fits n ⟨s, .resting (.inCommand index wake rest)⟩)
    (h : r.Abreast first earlier s t trace) (hcancelled : s.cancelled = true)
    (htime : (Point.resting (.inCommand index wake rest)).Timely t.now s.now)
    (hbegun : (Point.resting (.inCommand index wake rest)).Begun r.script trace)
    (hleads : r.undisturbed.Leads ideal ⟨t, .resting (.inCommand index wake rest)⟩)
    (hwork : r.Work ⟨s, .resting (.inCommand index wake rest)⟩ state') :
    r.Accompanied first earlier ideal state' := by
  obtain ⟨hnone, hcut, hgesture, -⟩ := hfits.point
  cases hwork with
  | resume s index wake rest i hi =>
    cases hfull : Sleep.isFull s.cancelled (r.env.tie s.now) wake s.now with
    | false =>
      exact .apart s _ trace h.toFollowed (.inr ⟨hcancelled, hcut, hnone⟩)
        ⟨_, hleads, h.there ▸ List.prefix_rfl⟩
    | true =>
      have hdue : wake ≤ s.now := by
        rw [hcancelled, Sleep.isFull, Bool.not_true, Bool.false_or, Bool.and_eq_true,
          decide_eq_true_eq] at hfull
        exact hfull.1
      have honward := leads_onward (s := s) (t := t) hleads htime h.goes (by
        rintro phase ⟨⟩
        simpa [Phase.isReady, Phase.wake?] using hdue) (by simp)
      let t' : Stage := { t with now := s.now }
      have hfull' :
          Sleep.isFull t'.cancelled (r.undisturbed.env.tie t'.now) wake t'.now = true := by
        rw [show t'.cancelled = false from h.goes, Sleep.isFull_of_goes]
      have hresume := honward.work (.resume t' index wake rest i hi (.inr hdue))
      rw [hfull'] at hresume
      exact .abreast s t' _ trace
        ⟨h.toFollowed, h.draws, h.transfer, h.goes, h.there⟩ (fun _ => hgesture) rfl hbegun hresume

/-- A run that is to stop and does nothing more ends, while the undisturbed one goes on. -/
theorem Followed.work (h : r.Followed first earlier s trace) (hcancelled : s.cancelled = true)
    (hidle : point.IsIdle s)
    (hleads : ∃ state, r.undisturbed.Leads ideal state ∧ earlier ++ trace <+: state.stage.trace)
    (hwork : r.Work ⟨s, point⟩ state') : r.Accompanied first earlier ideal state' := by
  have hgoes {P : Prop} (hgoes : s.cancelled = false) : P := by
    rw [hcancelled] at hgoes
    cases hgoes
  cases hwork with
  | skipStart | wakeToStart | land | landBehind | wakeToNext | skipDelay =>
    exact .apart s _ trace h (.inr ⟨hcancelled, trivial⟩) hleads
  | delayStart _ h | delay _ _ h | finish _ _ h | begin _ _ _ h => exact hgoes h
  | resume => exact absurd trivial hidle
  | halt s index => exact .apart s _ trace h (.inl ⟨_, rfl, by simp⟩) hleads
  | pause _ _ _ _ _ _ _ _ hrun | fail _ _ _ _ _ _ _ hrun | crash _ _ _ _ _ _ hrun =>
    obtain ⟨rfl, -⟩ := hidle
    cases hrun
  | jump _ _ _ _ _ _ _ hrun htransfer | stop _ _ _ _ _ _ hrun htransfer =>
    obtain ⟨rfl, hnone⟩ := hidle
    cases hrun
    rw [hnone] at htransfer
    cases htransfer
  | pass _ _ _ _ _ _ hrun | passLast _ _ _ _ _ _ hrun =>
    obtain ⟨rfl, hnone⟩ := hidle
    cases hrun
    exact .apart s _ trace h (.inr ⟨hcancelled, trivial⟩) hleads

/-- Every step of the worker keeps a run beside the undisturbed one. -/
theorem Accompanied.work {n : Nat} (hfits : r.Fits n state)
    (h : r.Accompanied first earlier ideal state) (hwork : r.Work state state') :
    r.Accompanied first earlier ideal state' := by
  cases h with
  | abreast s t point trace h hgoes htime hbegun hleads =>
    have hover (outcome : Outcome) : point ≠ .ended outcome := by
      rintro rfl
      exact htime
    have hsame : r.Abreast first earlier s { t with now := s.now } trace :=
      ⟨h.toFollowed, h.draws, h.transfer, h.goes, h.there⟩
    cases hcancelled : s.cancelled with
    | false =>
      refine hsame.work hcancelled rfl hfits hbegun
        (leads_onward hleads htime h.goes ?_ hover) hwork
      rintro phase rfl
      exact hcancelled ▸ hwork.ready
    | true =>
      match point, hgoes hcancelled with
      | .resting (.inCommand index wake rest), _ =>
        exact h.linger hfits hcancelled htime hbegun hleads hwork
      | .inside index p, hgesture =>
        obtain ⟨i, hi, hprogress⟩ := hbegun
        exact hsame.gesture rfl
          (leads_onward hleads htime h.goes (by simp) (by simp)) hwork hgesture
          hfits.point.1 hi hprogress
  | apart s point trace h hpoint hleads =>
    rcases hpoint with ⟨outcome, rfl, -⟩ | ⟨hcancelled, hidle⟩
    · cases hwork
    · exact h.work hcancelled hidle hleads hwork
  | refused => cases hwork

/-- Every step of a run keeps it beside the undisturbed one. -/
theorem Accompanied.step {n : Nat} (hfits : r.Fits n state)
    (h : r.Accompanied first earlier ideal state) (hstep : r.Step state state') :
    r.Accompanied first earlier ideal state' := by
  cases hstep with
  | work _ _ hwork => exact h.work hfits hwork
  | tick s phase wake time hwake hgoes hfrom hto =>
    cases h with
    | abreast _ t _ trace h _ htime hbegun hleads =>
      have hclock : r.Followed first earlier { s with now := time } trace := by
        refine h.of_eq rfl rfl ?_ id
        intro hcancelled
        rw [hgoes] at hcancelled
        cases hcancelled
      refine .abreast _ t _ trace ⟨hclock, h.draws, h.transfer, h.goes, h.there⟩
        (lingers_of_goes hgoes) ⟨Nat.le_trans htime.1 hfrom, ?_, ?_⟩ hbegun hleads
      · intro other hother
        exact Option.some.inj (hother.symm.trans hwake) ▸ hto
      · intro hnone
        rw [hnone] at hwake
        cases hwake
    | apart _ _ trace h hpoint hleads =>
      rcases hpoint with ⟨outcome, houtcome, -⟩ | ⟨hcancelled, -⟩
      · cases houtcome
      · rw [hgoes] at hcancelled
        cases hcancelled
  | turnAway s phase event hevent =>
    have htrace : (s.record event).trace = s.trace := by
      rw [Stage.trace_record]
      rcases hevent with rfl | rfl <;> exact List.append_nil _
    cases h with
    | abreast _ t _ trace h hgoes htime hbegun hleads =>
      exact .abreast _ t _ trace ⟨h.of_eq htrace rfl (fun _ => rfl) id, h.draws, h.transfer,
        h.goes, h.there⟩ hgoes htime hbegun hleads
    | apart _ _ trace h hpoint hleads =>
      exact .apart _ _ trace (h.of_eq htrace rfl (fun _ => rfl) id) hpoint hleads
  | cancel s phase =>
    have hstopped {trace : List (Nat × Event)} (h : r.Followed first earlier s trace) :
        r.Followed first earlier s.requestStop trace :=
      h.of_eq s.trace_requestStop rfl (fun _ => rfl) fun _ => rfl
    cases h with
    | abreast _ t _ trace h hgoes htime hbegun hleads =>
      -- From here on the two runs part, unless the stop comes in a pause of a command.
      by_cases hlingers : (Point.resting phase).Lingers
      · exact .abreast _ t _ trace ⟨hstopped h.toFollowed, h.draws, h.transfer, h.goes, h.there⟩
          (fun _ => hlingers) htime hbegun hleads
      · refine .apart _ _ trace (hstopped h.toFollowed) (.inr ⟨rfl, ?_⟩)
          ⟨_, hleads, h.there ▸ List.prefix_rfl⟩
        exact hlingers
    | apart _ _ trace h hpoint hleads =>
      rcases hpoint with ⟨outcome, houtcome, -⟩ | ⟨-, hidle⟩
      · cases houtcome
      · exact .apart _ _ trace (hstopped h) (.inr ⟨rfl, hidle⟩) hleads

/-- Wherever a run stands, it is beside the undisturbed one. -/
theorem Reaches.accompanied (hscript : r.script.IsBuiltin)
    (hleads : r.undisturbed.Leads ideal ⟨s, .resting .fresh⟩) (hgoes : s.cancelled = false)
    (h : r.Reaches ⟨s, .resting .fresh⟩ state) :
    r.Accompanied s.calls s.trace ideal state := by
  induction h with
  | refl =>
    have hnothing : s.trace = s.trace ++ [] := (List.append_nil _).symm
    refine .abreast s s _ [] ⟨⟨hnothing, rfl, by simp⟩, rfl, rfl, hgoes, hnothing⟩
      (lingers_of_goes hgoes) ⟨Nat.le_refl _, ?_, fun _ => rfl⟩ trivial hleads
    rintro _ ⟨⟩
  | tail hreaches hstep ih => exact ih.step (Reaches.fits hscript hreaches) hstep

end Course

end InputScript
