import InputScript.Engine.Event
import InputScript.Proofs.Command.Gesture

/-!
# `InputScript.Proofs.Command.Nesting`: what goes down comes up again

A key or a button that goes down has to come up again, and of several that are down the last
one has to come up first. `Nested` is the grammar of the sequences of transitions in which this
is so, with nothing left down at the end.

Four built-in commands are one half of such a gesture by purpose. Each other one leaves the
transitions nested wherever it pauses and where it returns, whether or not its pauses are cut
short (`Program.Releases`).

* `Nested.not_isHeld`: after a nested sequence nothing is held.
* `nested_strike`: a chord is nested, whatever its modifiers and its key are.
* `Command.releases_program`: the commands that release what they press.
-/

set_option autoImplicit false

namespace InputScript

/-- What can be held down: a key or a mouse button. -/
inductive Input where
  | key (key : Key)
  | button (button : Button)
deriving DecidableEq, Repr

/-- What an effect does to a key or a button, if it does anything to one. -/
def Effect.transition? : Effect → Option (Input × Transition)
  | .key k t => some (.key k, t)
  | .button b t => some (.button b, t)
  | .move .. => none
  | .wheel _ => none

/-- The transitions of keys and buttons among effects. -/
def transitionsOf (effects : List Effect) : List (Input × Transition) :=
  effects.filterMap Effect.transition?

/-- The effects among events. -/
def effectsOf (events : List (Nat × Event)) : List Effect :=
  events.filterMap fun entry => entry.2.effect?

/-- One more event is one more effect, if it is one. -/
theorem effectsOf_concat (trace : List (Nat × Event)) (time : Nat) (event : Event) :
    effectsOf (trace ++ [(time, event)]) = effectsOf trace ++ event.effect?.toList := by
  rw [effectsOf, List.filterMap_append]
  cases h : event.effect? <;> simp [h, effectsOf]

/-- The transitions of keys and buttons among events. -/
def inputsOf (events : List (Nat × Event)) : List (Input × Transition) :=
  transitionsOf (effectsOf events)

/-- Transitions in which everything that goes down comes up again, what went down last coming
up first. -/
inductive Nested : List (Input × Transition) → Prop where
  | nil : Nested []
  /-- While an input is down, others go down and come up. -/
  | hold (input : Input) {inner rest : List (Input × Transition)} (hinner : Nested inner)
      (hrest : Nested rest) : Nested ((input, .down) :: (inner ++ (input, .up) :: rest))

/-- An input is held after some transitions: it went down and has not come up since. -/
def IsHeld (transitions : List (Input × Transition)) (input : Input) : Prop :=
  ∃ before after, transitions = before ++ (input, .down) :: after ∧ (input, .up) ∉ after

namespace Nested

variable {first second inner : List (Input × Transition)}

/-- One nested sequence after another is nested. -/
theorem append (h : Nested first) (h' : Nested second) : Nested (first ++ second) := by
  induction h with
  | nil => exact h'
  | hold input hinner _ _ ih =>
    rw [List.cons_append, List.append_assoc]
    exact .hold input hinner ih

/-- Holding one input around a nested sequence is nested. -/
theorem around (input : Input) (h : Nested inner) :
    Nested ((input, .down) :: (inner ++ [(input, .up)])) :=
  .hold input h .nil

/-- In a nested sequence each input that goes down comes up later. -/
theorem up_mem (h : Nested first) {before after : List (Input × Transition)} {input : Input}
    (hsplit : first = before ++ (input, .down) :: after) : (input, .up) ∈ after := by
  induction h generalizing before after with
  | nil => simp at hsplit
  | @hold other inner rest _ _ ihinner ihrest =>
    cases before with
    | nil =>
      obtain ⟨hinput, rfl⟩ := List.cons.inj hsplit
      obtain rfl : other = input := (Prod.mk.inj hinput).1
      simp
    | cons t before =>
      -- The input goes down while the other one is down, or after that.
      rcases List.append_eq_append_iff.mp (List.cons.inj hsplit).2 with
        ⟨gap, -, hrest⟩ | ⟨gap, hinner, hafter⟩
      · cases gap with
        | nil => simp at hrest
        | cons t gap => exact ihrest (List.cons.inj hrest).2
      · cases gap with
        | nil => simp at hafter
        | cons t gap =>
          obtain ⟨rfl, rfl⟩ := List.cons.inj hafter
          exact List.mem_append_left _ (ihinner hinner)

/-- After a nested sequence nothing is held. -/
theorem not_isHeld (h : Nested first) (input : Input) : ¬ IsHeld first input := by
  rintro ⟨before, after, hsplit, hup⟩
  exact hup (h.up_mem hsplit)

end Nested

/-! ### Sequences that are nested -/

/-- The transitions of two lists of effects come one after the other. -/
theorem transitionsOf_append (first second : List Effect) :
    transitionsOf (first ++ second) = transitionsOf first ++ transitionsOf second :=
  List.filterMap_append

/-- Two parts of a history have the transitions of the one, then those of the other. -/
theorem inputsOf_append (first second : List (Nat × Event)) :
    inputsOf (first ++ second) = inputsOf first ++ inputsOf second := by
  rw [inputsOf, effectsOf, List.filterMap_append, transitionsOf_append]
  rfl

/-- Pressing a key is nested. -/
theorem nested_press (key : Key) : Nested (transitionsOf (Command.press key)) :=
  .around (.key key) .nil

/-- Clicking a button is nested. -/
theorem nested_click (button : Button) : Nested (transitionsOf (Command.click button)) :=
  .around (.button button) .nil

/-- A chord is nested. Its modifiers may be repeated, and its key may be one of them. -/
theorem nested_strike (chord : Chord) : Nested (transitionsOf (Command.strike chord)) := by
  obtain ⟨modifiers, key⟩ := chord
  induction modifiers with
  | nil =>
    have hnone : Command.strike ⟨[], key⟩ = Command.press key := by simp [Command.strike]
    rw [hnone]
    exact nested_press key
  | cons modifier rest ih =>
    -- The first modifier is held around the chord of the others.
    have hone : Command.strike ⟨modifier :: rest, key⟩ =
        .key modifier .down :: (Command.strike ⟨rest, key⟩ ++ [.key modifier .up]) := by
      simp [Command.strike]
    rw [hone, transitionsOf, List.filterMap_cons, List.filterMap_append]
    exact ih.around (.key modifier)

/-! ### Programs that release what they press -/

namespace Program

/-- After some transitions, a program leaves all transitions nested wherever it pauses and
where it returns, however its pauses end. A call that fails may have performed its effect. -/
def Releases (before : List (Input × Transition)) : Program → Prop
  | .done => Nested before
  | .fail _ => True
  | .crash => True
  | .call effect next failed => next.Releases (before ++ effect.transition?.toList) ∧
      ∀ cause, (failed cause).Releases before ∧
        (failed cause).Releases (before ++ effect.transition?.toList)
  | .pause _ next => Nested before ∧ ∀ full, (next full).Releases before
  | .stopping next => ∀ cancelled, (next cancelled).Releases before
  | .jump _ next => next.Releases before
  | .stop next => next.Releases before
  | .choose _ _ next => ∀ n, (next n).Releases before

/-- An effect before a program adds its transition. -/
theorem releases_perform_iff (effect : Effect) (next : Program)
    (before : List (Input × Transition)) : (perform effect next).Releases before ↔
      next.Releases (before ++ effect.transition?.toList) := by
  simp [perform, Releases]

/-- Effects before a program add their transitions. -/
theorem releases_performAll_iff (effects : List Effect) (next : Program)
    (before : List (Input × Transition)) :
    (performAll effects next).Releases before ↔
      next.Releases (before ++ transitionsOf effects) := by
  induction effects generalizing before with
  | nil => rw [transitionsOf, List.filterMap_nil, List.append_nil]; rfl
  | cons effect rest ih =>
    show (perform effect (performAll rest next)).Releases before ↔ _
    rw [releases_perform_iff, ih, List.append_assoc, transitionsOf, transitionsOf,
      List.filterMap_cons]
    cases effect.transition? <;> rfl

/-- Nested effects alone release what they press. -/
theorem releases_performAll {effects : List Effect} {before : List (Input × Transition)}
    (heffects : Nested (transitionsOf effects)) (hbefore : Nested before) :
    (performAll effects .done).Releases before :=
  (releases_performAll_iff effects .done before).mpr (hbefore.append heffects)

end Program

namespace Command

variable {before : List (Input × Transition)}

/-- Typing after a pause releases every key before the next pause. -/
theorem releases_typeAfterPause (delay : Span) (chars : List Char) (h : Nested before) :
    (typeAfterPause delay chars).Releases before := by
  induction chars generalizing before with
  | nil => exact h
  | cons c rest ih =>
    have htyping : (Program.performAll (press (keyFor c)) (typeAfterPause delay rest)).Releases
        before :=
      (Program.releases_performAll_iff ..).mpr (ih (h.append (nested_press _)))
    show Program.Releases before (if delay.isZero then _ else _)
    split
    · exact htyping
    · refine ⟨h, ?_⟩
      intro full
      cases full with
      | true => exact htyping
      | false => exact h

/-- Typing releases every key before the next pause. -/
theorem releases_typeChars (delay : Span) (chars : List Char) (h : Nested before) :
    (typeChars delay chars).Releases before := by
  cases chars with
  | nil => exact h
  | cons c rest =>
    exact (Program.releases_performAll_iff ..).mpr
      (releases_typeAfterPause delay rest (h.append (nested_press _)))

/-- The built-in commands that are one half of a gesture by purpose. -/
def halves : List Builtin :=
  [.keyDown, .keyUp, .mouseDown, .mouseUp]

/-- A built-in command releases what it presses, unless it is one half of a gesture. -/
theorem releases_program {c : Command} (hbuiltin : c.IsBuiltin)
    (hwhole : ∀ b ∈ halves, c.name ≠ b.name) (h : Nested before) :
    c.program.Releases before := by
  cases c with
  | call target =>
    show Program.Releases before (if 0 < target then _ else _)
    split <;> exact h
  | label name => exact h
  | wait min max =>
    show Program.Releases before (pauseBetween min max)
    rw [pauseBetween]
    split
    · exact ⟨h, fun _ => h⟩
    · exact fun _ => ⟨h, fun _ => h⟩
  | stop => exact h
  | keyDown key => exact absurd rfl (hwhole .keyDown (by decide))
  | keyUp key => exact absurd rfl (hwhole .keyUp (by decide))
  | mouseDown button => exact absurd rfl (hwhole .mouseDown (by decide))
  | mouseUp button => exact absurd rfl (hwhole .mouseUp (by decide))
  | keyPress chord => exact Program.releases_performAll (nested_strike chord) h
  | mouseClick button => exact Program.releases_performAll (nested_click button) h
  | typeText text delay => exact releases_typeChars delay text.toList h
  -- The pointer and the wheel hold nothing.
  | mouseMove x y =>
    have hnone : Nested (transitionsOf [.move x y]) := .nil
    exact Program.releases_performAll hnone h
  | mouseWheel delta =>
    have hnone : Nested (transitionsOf [.wheel delta]) := .nil
    exact Program.releases_performAll hnone h
  | custom name program => exact hbuiltin.elim

end Command

end InputScript
