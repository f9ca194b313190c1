import InputScript.Key

/-!
# `InputScript.Key.Chord`: a key with modifiers held around it

A chord is written as key names joined by plus signs, all but the last naming modifiers.
A plus sign alone is the plus key. Every other plus sign separates, so the plus key takes
no modifiers.

`isModifier_of_modifier`: what was read before a plus sign is a modifier key.
-/

set_option autoImplicit false

namespace InputScript

/-- A key with zero or more modifiers held around it. -/
structure Chord where
  modifiers : List Key
  key : Key
deriving DecidableEq, Repr

namespace Chord

open Text

/-- The modifier that a part of a chord names. -/
def modifier (part : List Char) : Except KeyError Key :=
  match Key.ofName (trim part) with
  | .error e => .error e
  | .ok key => if key.isModifier then .ok key else .error (.notModifier (String.ofList part))

/-- The chord of its parts, all but the last being modifiers. The first part that is
none decides the error. -/
def ofParts (parts : List (List Char)) : Except KeyError Chord :=
  match parts with
  | [] => .error .empty
  | [last] =>
    match Key.ofName (trim last) with
    | .error e => .error e
    | .ok key => .ok ⟨[], key⟩
  | part :: rest =>
    match modifier part, ofParts rest with
    | .error e, _ => .error e
    | .ok _, .error e => .error e
    | .ok held, .ok chord => .ok ⟨held :: chord.modifiers, chord.key⟩

/-- Reads a chord. -/
def parse (s : String) : Except KeyError Chord :=
  if trim s.toList = ['+'] then .ok ⟨[], .char '+'⟩
  else ofParts (s.toList.splitOn '+')

/-- What names a modifier is a modifier key. -/
theorem isModifier_of_modifier {part : List Char} {key : Key}
    (h : modifier part = .ok key) : key.isModifier = true := by
  unfold modifier at h
  split at h
  · cases h
  · split at h
    · rename_i hmod
      cases h
      exact hmod
    · cases h

example : parse "Ctrl+Shift+s" = .ok ⟨[.control, .shift], .char 'S'⟩ := rfl
example : parse " + " = .ok ⟨[], .char '+'⟩ := rfl
example : parse "Ctrl++" = .error .empty := rfl
example : parse "A+B" = .error (.notModifier "A") := rfl

end Chord

end InputScript
