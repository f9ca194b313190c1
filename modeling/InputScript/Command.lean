import InputScript.Catalog.Arity
import InputScript.Key.Chord
import InputScript.Program

/-!
# `InputScript.Command`: prepared commands and what they do

A prepared command has its parameters read and its jump target found. Thirteen commands
are built in; any other is a name with a program.

`Command.program` gives each command its steps. Gestures that press something also
release it within the same command, unless the command is one half of such a gesture by
purpose.
-/

set_option autoImplicit false

namespace InputScript

/-- A command whose parameters have been read. -/
inductive Command where
  /-- Continues at a source line; a target below one does nothing. -/
  | call (target : Int)
  /-- Marks a line that can be jumped to. -/
  | label (name : String)
  /-- Pauses for a span between two bounds. -/
  | wait (min max : Span)
  /-- Ends the run. -/
  | stop
  | keyDown (key : Key)
  | keyUp (key : Key)
  | keyPress (chord : Chord)
  /-- Types a text, pausing between its characters. -/
  | typeText (text : String) (delay : Span)
  | mouseMove (x y : Int)
  | mouseDown (button : Button)
  | mouseUp (button : Button)
  | mouseClick (button : Button)
  | mouseWheel (delta : Int)
  /-- A command that is not built in. -/
  | custom (name : String) (program : Program)

/-- The commands that are built in. -/
inductive Builtin where
  | call
  | label
  | wait
  | stop
  | keyDown
  | keyUp
  | keyPress
  | typeText
  | mouseMove
  | mouseDown
  | mouseUp
  | mouseClick
  | mouseWheel
deriving DecidableEq, Repr

/-- The name of a built-in command. -/
def Builtin.name : Builtin → String
  | .call => "Call"
  | .label => "Label"
  | .wait => "Wait"
  | .stop => "Stop"
  | .keyDown => "KeyDown"
  | .keyUp => "KeyUp"
  | .keyPress => "KeyPress"
  | .typeText => "KeyPressText"
  | .mouseMove => "MouseMove"
  | .mouseDown => "MouseDown"
  | .mouseUp => "MouseUp"
  | .mouseClick => "MouseClick"
  | .mouseWheel => "MouseWheel"

namespace Command

/-- The name of a command. -/
def name : Command → String
  | call _ => Builtin.call.name
  | label _ => Builtin.label.name
  | wait .. => Builtin.wait.name
  | stop => Builtin.stop.name
  | keyDown _ => Builtin.keyDown.name
  | keyUp _ => Builtin.keyUp.name
  | keyPress _ => Builtin.keyPress.name
  | typeText .. => Builtin.typeText.name
  | mouseMove .. => Builtin.mouseMove.name
  | mouseDown _ => Builtin.mouseDown.name
  | mouseUp _ => Builtin.mouseUp.name
  | mouseClick _ => Builtin.mouseClick.name
  | mouseWheel _ => Builtin.mouseWheel.name
  | custom name _ => name

/-- A key that goes down and comes up again. -/
def press (key : Key) : List Effect :=
  [.key key .down, .key key .up]

/-- A chord: the modifiers go down in order, the key is pressed, and the modifiers come
up in the opposite order. -/
def strike (chord : Chord) : List Effect :=
  chord.modifiers.map (.key · .down) ++ press chord.key ++
    chord.modifiers.reverse.map (.key · .up)

/-- A button that goes down and comes up again. -/
def click (button : Button) : List Effect :=
  [.button button .down, .button button .up]

/-- The key that types a character. Letters are taken as they are. -/
def keyFor (c : Char) : Key :=
  match c with
  | '\n' => .enter
  | '\t' => .tab
  | ' ' => .space
  | c => .char c

/-- Types characters, each after a pause. A pause that is cut short ends the typing, and
an empty one is left out. -/
def typeAfterPause (delay : Span) : List Char → Program
  | [] => .done
  | c :: rest =>
    let typing := Program.performAll (press (keyFor c)) (typeAfterPause delay rest)
    if delay.isZero then typing
    else .pause delay fun full => if full then typing else .done

/-- Types characters with a pause between any two. -/
def typeChars (delay : Span) : List Char → Program
  | [] => .done
  | c :: rest => Program.performAll (press (keyFor c)) (typeAfterPause delay rest)

/-- Pauses for a span between two bounds: the lower one if the bounds leave no choice,
and else a whole number of milliseconds, drawn between the whole milliseconds of the
bounds and kept to 64 bits. -/
def pauseBetween (min max : Span) : Program :=
  if max.nanos ≤ min.nanos then .rest min .done
  else .choose min.millis max.millis fun ms => .rest (.ofMillis (ms % Number.bound64)) .done

/-- What a command does while it runs. -/
def program : Command → Program
  | call target => if 0 < target then .jump target.toNat .done else .done
  | label _ => .done
  | wait min max => pauseBetween min max
  | stop => .stop .done
  | keyDown key => .perform (.key key .down) .done
  | keyUp key => .perform (.key key .up) .done
  | keyPress chord => .performAll (strike chord) .done
  | typeText text delay => typeChars delay text.toList
  | mouseMove x y => .perform (.move x y) .done
  | mouseDown button => .perform (.button button .down) .done
  | mouseUp button => .perform (.button button .up) .done
  | mouseClick button => .performAll (click button) .done
  | mouseWheel delta => .perform (.wheel delta) .done
  | custom _ program => program

end Command

end InputScript
