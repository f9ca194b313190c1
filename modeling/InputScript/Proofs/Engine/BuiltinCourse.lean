import InputScript.Proofs.Engine.Course
import InputScript.Proofs.Engine.Stopping

/-!
# `InputScript.Proofs.Engine.BuiltinCourse`: where runs of built-in commands stand

Wherever a run of built-in commands stands, what it has left of the present instruction is a
gesture, a jump or a stop, and that instruction is the one that began last. So the way in which
the run ends tells what led there: it completes only if it is not to stop, it ends as stopped
only if it is, and it fails or crashes only because the device refused the last effect that the
run asked for.

* `Course.Fits.step`: every step of a run keeps this.
* `Course.Reaches.fits`: it holds wherever a run of built-in commands stands.
-/

set_option autoImplicit false

namespace InputScript

open Program (Gesture)

/-- The programs of built-in commands: a gesture, a jump or a stop. -/
def Program.IsBuiltin (p : Program) : Prop :=
  Gesture p ∨ (∃ line, p = .jump line .done) ∨ p = .stop .done

/-- Whether a program halts as it does because of an answer of the device. -/
def Halt.IsRefusal (answer : Answer) : Halt → Prop
  | .failed cause => ∃ performed, answer = .failed cause performed
  | .crashed => ∃ performed, answer = .crashed performed
  | _ => False

/-- How a run ends that the device refuses a call with an answer. -/
inductive Outcome.Refused (answer : Answer) : Outcome → Prop where
  | failed (command : String) (line : Nat) (cause : String) (performed : Bool)
      (h : answer = .failed cause performed) :
      Refused answer (.failed (.effect command line cause))
  | crashed (performed : Bool) (h : answer = .crashed performed) : Refused answer .crashed

/-- A run whose call was refused has failed. -/
theorem Outcome.Refused.exists_error {answer : Answer} {outcome : Outcome}
    (h : outcome.Refused answer) :
    ∃ error, outcome = .failed error ∧ answer ≠ .done := by
  cases h with
  | failed command line cause performed h => exact ⟨_, rfl, by simp [h]⟩
  | crashed performed h => exact ⟨_, rfl, by simp [h]⟩

namespace Program

variable {env : Surroundings} {p : Program} {s s' : Stage} {halt : Halt}

/-- A gesture that does not return and does not sleep has asked the device, which refused. -/
theorem Gesture.calls_lt (h : Gesture p) (hrun : p.run env s = (s', halt))
    (hhalt : halt = .crashed ∨ ∃ cause, halt = .failed cause) : s.calls < s'.calls := by
  induction h generalizing s with
  | done =>
    cases hrun
    rcases hhalt with h | ⟨cause, h⟩ <;> cases h
  | perform effect next _ ih =>
    rw [Program.run] at hrun
    have hcall : s.calls < (s.call env.device effect).calls := by simp
    cases hanswer : (s.reply env.device effect).answer with
    | done =>
      rw [hanswer] at hrun
      exact Nat.lt_trans hcall (ih hrun)
    | failed | crashed =>
      rw [hanswer] at hrun
      cases hrun
      exact hcall
  | pause span next hcut _ ih =>
    rw [Program.run] at hrun
    split at hrun
    · rename_i full _
      cases full with
      | true => exact ih hrun
      | false =>
        rw [hcut] at hrun
        cases hrun
        rcases hhalt with h | ⟨cause, h⟩ <;> cases h
    · cases hrun
      rcases hhalt with h | ⟨cause, h⟩ <;> cases h
  | choose low high next _ ih =>
    rw [Program.run] at hrun
    have hcalls := ih _ hrun
    exact hcalls

/-- Only a gesture halts otherwise than by returning. -/
theorem IsBuiltin.gesture_of_halt (h : p.IsBuiltin) (hrun : p.run env s = (s', halt))
    (hhalt : halt ≠ .returned) : Gesture p := by
  rcases h with h | ⟨line, rfl⟩ | rfl
  · exact h
  · cases hrun
    exact absurd rfl hhalt
  · cases hrun
    exact absurd rfl hhalt

/-- Where the program of a built-in command fails or crashes, it has asked the device, which
refused its last effect, and no instruction has begun meanwhile. -/
theorem IsBuiltin.refused (h : p.IsBuiltin) (hrun : p.run env s = (s', halt))
    (hhalt : halt = .crashed ∨ ∃ cause, halt = .failed cause) :
    s.calls < s'.calls ∧ s'.lastBegun? = s.lastBegun? ∧
      ∃ effect, halt.IsRefusal (env.device s'.calls effect).answer := by
  have hgesture : Gesture p := by
    refine h.gesture_of_halt hrun ?_
    rcases hhalt with rfl | ⟨cause, rfl⟩ <;> simp
  have hfits := hgesture.run_fits env s
  rw [hrun] at hfits
  obtain ⟨-, hlast, hanswer⟩ := hfits
  refine ⟨hgesture.calls_lt hrun hhalt, hlast, ?_⟩
  rcases hhalt with rfl | ⟨cause, rfl⟩
  · exact hanswer
  · exact hanswer

/-- Where the program of a built-in command has asked to stop, the run is to stop. -/
theorem IsBuiltin.cancelled_of_stop (h : p.IsBuiltin) (hnone : s.transfer = none)
    (hrun : p.run env s = (s', halt)) (hstop : s'.transfer = some .stop) :
    s'.cancelled = true := by
  rcases h with h | ⟨line, rfl⟩ | rfl
  · -- A gesture asks for no transfer.
    have htransfer := (h.run_fits env s).1
    rw [hrun, hstop, hnone] at htransfer
    cases htransfer
  · cases hrun
    cases hstop
  · cases hrun
    rfl

end Program

namespace Course

variable (r : Course) (first : Nat)

/-- What holds at a point of a run of built-in commands that began when the device had been
asked `first` times. -/
def PointFits (s : Stage) : Point → Prop
  | .resting phase => phase.Fits r.script s
  | .delaying _ => True
  | .before _ => True
  | .inside index p => s.transfer = none ∧ p.IsBuiltin ∧
      ∃ i, r.script.instructions[index]? = some i ∧ s.lastBegun? = some (i.line, i.name)
  | .ended .completed => s.cancelled = false
  | .ended .stopped => s.cancelled = true
  | .ended (.failed error) => first < s.calls ∧
      (∃ effect, (Outcome.failed error).Refused (r.env.device s.calls effect).answer) ∧
      ∀ command line cause, error = .effect command line cause →
        s.lastBegun? = some (line, command)

/-- What holds in every state of a run of built-in commands. -/
structure Fits (state : State) : Prop where
  calls : first ≤ state.stage.calls
  point : r.PointFits first state.stage state.point

variable {r first} {state state' : State}

/-- A step of the worker never makes the device be asked less often. -/
theorem Work.calls_le (h : r.Work state state') : state.stage.calls ≤ state'.stage.calls := by
  have hrun {p : Program} {s s' : Stage} {halt : Halt} (hrun : p.run r.env s = (s', halt)) :
      s.calls ≤ s'.calls := by
    have hcalls := (p.run_steps r.env s).calls_le
    rwa [hrun] at hcalls
  cases h with
  | pause _ _ _ _ _ _ _ _ h | fail _ _ _ _ _ _ _ h | crash _ _ _ _ _ _ h
  | stop _ _ _ _ _ _ h | pass _ _ _ _ _ _ h | passLast _ _ _ _ _ _ h => exact hrun h
  | jump s s' _ _ _ _ _ h =>
    show s.calls ≤ s'.calls
    exact hrun h
  | _ => exact Nat.le_refl _

/-- Every step of the worker keeps what holds in a run of built-in commands. -/
theorem Fits.work (hscript : r.script.IsBuiltin) (h : r.Fits first state)
    (hwork : r.Work state state') : r.Fits first state' := by
  refine ⟨Nat.le_trans h.calls hwork.calls_le, ?_⟩
  have hpoint := h.point
  cases hwork with
  | skipStart | delayStart | wakeToStart | land | landBehind | wakeToNext | skipDelay | delay =>
    trivial
  | resume s index wake rest i hi =>
    obtain ⟨hnone, hcut, hfull, hbegun⟩ := hpoint
    refine ⟨hnone, .inl ?_, hbegun⟩
    -- The rest of the program is a gesture, whether or not the pause was cut short.
    cases Sleep.isFull s.cancelled (r.env.tie s.now) wake s.now with
    | true => exact hfull
    | false => exact hcut ▸ .done
  | halt s index hcancelled => exact hcancelled
  | finish s index hgoes => exact hgoes
  | begin s index i hgoes hi =>
    have hcommand := hscript i (List.mem_of_getElem? hi)
    exact ⟨rfl, Command.program_of_isBuiltin hcommand, i, hi, rfl⟩
  | pause s s' index i p wake rest hi hrun =>
    obtain ⟨hnone, hp, hbegun⟩ := hpoint
    have hgesture := hp.gesture_of_halt hrun (by simp)
    obtain ⟨htransfer, hlast, hhalt⟩ := hgesture.run_fits r.env s
    rw [hrun] at htransfer hlast hhalt
    obtain ⟨-, hcut, hfull⟩ := hhalt
    exact ⟨htransfer.trans hnone, hcut, hfull, by rwa [hlast]⟩
  | fail s s' index i p cause hi hrun =>
    obtain ⟨-, hp, i', hi', hbegun⟩ := hpoint
    obtain rfl : i = i' := Option.some.inj (hi.symm.trans hi')
    obtain ⟨hcalls, hlast, effect, performed, hanswer⟩ := hp.refused hrun (.inr ⟨cause, rfl⟩)
    refine ⟨Nat.lt_of_le_of_lt h.calls hcalls, ⟨effect, .failed _ _ cause performed hanswer⟩, ?_⟩
    intro command line cause' herror
    cases herror
    exact hlast.trans hbegun
  | crash s s' index i p hi hrun =>
    obtain ⟨-, hp, -⟩ := hpoint
    obtain ⟨hcalls, -, effect, performed, hanswer⟩ := hp.refused hrun (.inl rfl)
    refine ⟨Nat.lt_of_le_of_lt h.calls hcalls, ⟨effect, .crashed performed hanswer⟩, ?_⟩
    intro command line cause herror
    cases herror
  | jump => trivial
  | stop s s' index i p hi hrun hstop =>
    obtain ⟨hnone, hp, -⟩ := hpoint
    exact hp.cancelled_of_stop hnone hrun hstop
  | pass | passLast => trivial

/-- Every step of a run keeps what holds in a run of built-in commands. -/
theorem Fits.step (hscript : r.script.IsBuiltin) (h : r.Fits first state)
    (hstep : r.Step state state') : r.Fits first state' := by
  have hpoint := h.point
  cases hstep with
  | work _ _ hwork => exact h.work hscript hwork
  -- What comes from outside changes nothing that the resting worker needs.
  | tick s phase wake time => exact ⟨h.calls, Engine.fits_of_eq rfl rfl hpoint⟩
  | turnAway s phase event hevent =>
    have hbegun : (s.record event).lastBegun? = s.lastBegun? := by
      rcases hevent with rfl | rfl <;> rfl
    exact ⟨h.calls, Engine.fits_of_eq (s := s) rfl hbegun hpoint⟩
  | cancel s phase => exact ⟨h.calls, Engine.fits_of_eq rfl rfl hpoint⟩

/-- Wherever a run of built-in commands stands, what it has left to do fits. -/
theorem Reaches.fits (hscript : r.script.IsBuiltin) {s : Stage}
    (h : r.Reaches ⟨s, .resting .fresh⟩ state) : r.Fits s.calls state := by
  induction h with
  | refl => exact ⟨Nat.le_refl _, trivial⟩
  | tail _ hstep ih => exact ih.step hscript hstep

end Course

end InputScript
