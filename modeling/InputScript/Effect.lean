import InputScript.Key

/-!
# `InputScript.Effect`: what a script does to the keyboard and the mouse

Four kinds of effect: the pointer moves, a key or a mouse button goes down or up, and
the wheel scrolls. Coordinates and scroll distances are 32-bit integers; the parameters
that give them are checked when a command is prepared.
-/

set_option autoImplicit false

namespace InputScript

/-- A key or button going down or coming up. -/
inductive Transition where
  | down
  | up
deriving DecidableEq, Repr

/-- The name under which a transition is shown. -/
def Transition.name : Transition → String
  | .down => "Down"
  | .up => "Up"

/-- A mouse button. -/
inductive Button where
  | left
  | right
  | middle
deriving DecidableEq, Repr

namespace Button

/-- The name under which a button is shown. -/
def name : Button → String
  | .left => "Left"
  | .right => "Right"
  | .middle => "Middle"

/-- The names of the buttons, in lower case. -/
def names : List (String × Button) := [
  ("left", .left), ("l", .left), ("right", .right), ("r", .right),
  ("middle", .middle), ("m", .middle)]

/-- Reads a button name, ignoring ASCII case and the blanks around it. -/
def parse? (s : String) : Option Button :=
  names.lookup (String.ofList (Text.lower (Text.trim s.toList)))

/-- The wording for a text that names no button. -/
def unknownMessage (text : String) : String :=
  s!"unknown mouse button: {text}"

end Button

/-- One effect on the keyboard or the mouse. -/
inductive Effect where
  /-- The pointer moves to screen coordinates. -/
  | move (x y : Int)
  /-- A key goes down or comes up. -/
  | key (key : Key) (transition : Transition)
  /-- A mouse button goes down or comes up. -/
  | button (button : Button) (transition : Transition)
  /-- The wheel scrolls; a positive distance scrolls up. -/
  | wheel (delta : Int)
deriving DecidableEq, Repr

/-- An effect as the log shows it. -/
def Effect.describe : Effect → String
  | .move x y => s!"move_mouse_to({x}, {y})"
  | .key k t => s!"send_key({k.name}, {t.name})"
  | .button b t => s!"mouse_button({b.name}, {t.name})"
  | .wheel delta => s!"scroll_wheel({delta})"

example : Effect.describe (.key (.char 'A') .down) = "send_key(A, Down)" := by decide +kernel
example : Button.parse? " LEFT" = some .left := by decide +kernel

end InputScript
