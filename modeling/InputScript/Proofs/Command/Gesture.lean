import InputScript.Proofs.Catalog.Builtin
import InputScript.Proofs.Script.Numbering

/-!
# `InputScript.Proofs.Command.Gesture`: what the programs of built-in commands look like

Two built-in commands only direct the run: one jumps and one stops. Each of the others makes
a gesture: it performs effects, it pauses, and when a pause is cut short it returns at once.
It never asks for a transfer, and it fails or crashes only where the device does.

* `Command.gesture_program`, `Command.program_of_isBuiltin`: a built-in command makes a gesture,
  jumps or stops.
* `Script.IsCompiled.isBuiltin`: a script that compiles with the built-in catalog consists of
  built-in commands.
-/

set_option autoImplicit false

namespace InputScript

/-- A program that performs effects and pauses. It ends where a pause is cut short. -/
inductive Program.Gesture : Program → Prop where
  | done : Gesture .done
  | perform (effect : Effect) (next : Program) (h : Gesture next) :
      Gesture (.call effect next .fail)
  | pause (span : Span) (next : Bool → Program) (hcut : next false = .done)
      (hfull : Gesture (next true)) : Gesture (.pause span next)
  | choose (low high : Nat) (next : Nat → Program) (h : ∀ n, Gesture (next n)) :
      Gesture (.choose low high next)

/-- Whether a command is built in. -/
def Command.IsBuiltin : Command → Prop
  | .custom .. => False
  | _ => True

/-- A script of built-in commands. -/
def Script.IsBuiltin (script : Script) : Prop :=
  ∀ i ∈ script.instructions, i.command.IsBuiltin

/-- A script that the built-in catalog makes of some lines. -/
def Script.IsCompiled (script : Script) : Prop :=
  ∃ lines, Catalog.builtin.compile lines = .ok script

namespace Program

/-- Effects before a gesture belong to it. -/
theorem Gesture.performAll (effects : List Effect) {next : Program} (h : Gesture next) :
    Gesture (performAll effects next) := by
  induction effects with
  | nil => exact h
  | cons effect rest ih => exact .perform effect _ ih

/-- Resting alone is a gesture. -/
theorem Gesture.rest (span : Span) : Gesture (Program.rest span .done) :=
  .pause span _ rfl .done

end Program

namespace Command

open Program (Gesture)

/-- Typing on after a pause is a gesture: it ends where the pause is cut short. -/
theorem gesture_typeAfterPause (delay : Span) (chars : List Char) :
    Gesture (typeAfterPause delay chars) := by
  induction chars with
  | nil => exact .done
  | cons c rest ih =>
    -- Without a delay there is no pause between the characters.
    have htyping := Gesture.performAll (press (keyFor c)) ih
    show Gesture (if delay.isZero then _ else _)
    split
    · exact htyping
    · exact .pause delay _ rfl htyping

/-- A built-in command that directs nothing makes a gesture. -/
theorem gesture_program {c : Command} (h : c.IsBuiltin)
    (hcall : ∀ target, c = .call target → target ≤ 0) (hstop : c ≠ .stop) :
    Gesture c.program := by
  cases c with
  | call target =>
    have hbackward : ¬ 0 < target := Int.not_lt.mpr (hcall target rfl)
    rw [program, if_neg hbackward]
    exact .done
  | label name => exact .done
  | wait min max =>
    show Gesture (pauseBetween min max)
    rw [pauseBetween]
    split
    · exact .rest min
    · exact .choose _ _ _ fun ms => .rest _
  | stop => exact absurd rfl hstop
  | typeText text delay =>
    show Gesture (typeChars delay text.toList)
    cases text.toList with
    | nil => exact .done
    | cons c rest => exact .performAll _ (gesture_typeAfterPause delay rest)
  | keyPress chord => exact .performAll _ .done
  | mouseClick button => exact .performAll _ .done
  | keyDown | keyUp | mouseMove | mouseDown | mouseUp | mouseWheel => exact .perform _ _ .done
  | custom name program => exact h.elim

/-- A jump asks to go on at its target, if that is a line from one on. -/
theorem program_of_forward {target : Int} (h : 0 < target) :
    program (.call target) = .jump target.toNat .done :=
  if_pos h

/-- A built-in command makes a gesture, unless it is a jump or a stop. -/
theorem program_of_isBuiltin {c : Command} (h : c.IsBuiltin) :
    Gesture c.program ∨ (∃ line, c.program = .jump line .done) ∨ c.program = .stop .done := by
  by_cases hcall : ∃ target, c = .call target ∧ 0 < target
  · obtain ⟨target, rfl, hforward⟩ := hcall
    exact .inr (.inl ⟨target.toNat, program_of_forward hforward⟩)
  by_cases hstop : c = .stop
  · subst hstop
    exact .inr (.inr rfl)
  · refine .inl (gesture_program h ?_ hstop)
    intro target htarget
    exact Int.not_lt.mp fun hforward => hcall ⟨target, htarget, hforward⟩

end Command

/-- A built-in command is prepared into a built-in command. -/
theorem Builtin.isBuiltin_of_prepare {b : Builtin} {scope : Scope} {p : Prepared}
    (h : b.prepare scope = .ok p) : p.command.IsBuiltin := by
  cases b with
  | call =>
    simp only [prepare, prepareCall] at h
    split at h
    · cases h
    · split at h
      · cases h; trivial
      · split at h <;> cases h; trivial
  | label =>
    simp only [prepare, prepareLabel] at h
    split at h <;> cases h; trivial
  | wait =>
    simp only [prepare, prepareWait, bind, Except.bind] at h
    split at h
    · cases h
    · split at h
      · cases h
      · split at h <;> cases h; trivial
  | stop => cases h; trivial
  | typeText =>
    simp only [prepare, prepareTypeText, bind, Except.bind] at h
    split at h <;> cases h; trivial
  | mouseMove =>
    simp only [prepare, prepareMouseMove, bind, Except.bind] at h
    split at h
    · cases h
    · split at h <;> cases h; trivial
  | keyDown | keyUp | keyPress | mouseDown | mouseUp | mouseClick | mouseWheel =>
    simp only [prepare, bind, Except.bind] at h
    split at h <;> cases h; trivial

/-- A script that compiles with the built-in catalog consists of built-in commands. -/
theorem Script.IsCompiled.isBuiltin {script : Script} (h : script.IsCompiled) :
    script.IsBuiltin := by
  obtain ⟨lines, hlines⟩ := h
  obtain ⟨source, -, -, hcompiled⟩ := Catalog.source_of_compile hlines
  intro i hi
  obtain ⟨c, -, hc⟩ := Catalog.exists_of_forall₂ hcompiled.flip hi
  obtain ⟨b, -, hprepared, -⟩ := Catalog.builtin_of_compileLine hc
  exact Builtin.isBuiltin_of_prepare hprepared

/-- The lines of the instructions of a compiled script increase. -/
theorem Script.IsCompiled.sorted {script : Script} (h : script.IsCompiled) :
    script.instructions.Pairwise fun a b => a.line < b.line := by
  obtain ⟨lines, hlines⟩ := h
  exact Catalog.sorted_of_compile hlines

end InputScript
