import InputScript.Number.Integer
import InputScript.Text.AsciiCase
import InputScript.Text.Blank

/-!
# `InputScript.Key`: keyboard keys and their names

A single character names the key that types it, a letter being stored in upper case.
Longer names are looked up ignoring ASCII case, several names standing for one key, and
`F` with a number from 1 to 24 names a function key.

`parse_singleton`: every character that is no blank names its own key.
-/

set_option autoImplicit false

namespace InputScript

/-- A single keyboard key. -/
inductive Key where
  /-- The key that types a character. -/
  | char (c : Char)
  | enter
  | tab
  | escape
  | space
  | backspace
  | delete
  | insert
  | home
  | endKey
  | pageUp
  | pageDown
  | up
  | down
  | left
  | right
  /-- A function key. Parsing gives the numbers 1 to 24. -/
  | function (n : Nat)
  | shift
  | control
  | alt
  | metaKey
  | capsLock
deriving DecidableEq, Repr

/-- Why a text names no key, or no chord of keys. -/
inductive KeyError where
  | empty
  /-- No key has this name. -/
  | unknown (name : String)
  /-- The part of a chord before a plus sign names a key that is no modifier. -/
  | notModifier (part : String)
deriving DecidableEq, Repr

/-- The wording of a key error. -/
def KeyError.message : KeyError → String
  | .empty => "empty key name"
  | .unknown name => s!"unknown key: {name}"
  | .notModifier part => s!"'{part}' is not a modifier key"

namespace Key

open Text

/-- Whether a key may be held around another one in a chord. -/
def isModifier : Key → Bool
  | .shift | .control | .alt | .metaKey => true
  | _ => false

/-- The names of two or more letters, in lower case, with the keys they stand for. -/
def names : List (String × Key) := [
  ("enter", .enter), ("return", .enter),
  ("tab", .tab),
  ("escape", .escape), ("esc", .escape),
  ("space", .space), ("spacebar", .space),
  ("backspace", .backspace), ("back", .backspace),
  ("delete", .delete), ("del", .delete),
  ("insert", .insert), ("ins", .insert),
  ("home", .home), ("end", .endKey),
  ("pageup", .pageUp), ("pgup", .pageUp), ("prior", .pageUp),
  ("pagedown", .pageDown), ("pgdn", .pageDown), ("next", .pageDown),
  ("up", .up), ("down", .down), ("left", .left), ("right", .right),
  ("shift", .shift), ("shiftkey", .shift),
  ("ctrl", .control), ("control", .control), ("controlkey", .control),
  ("alt", .alt), ("menu", .alt),
  ("meta", .metaKey), ("win", .metaKey), ("super", .metaKey), ("cmd", .metaKey),
  ("capslock", .capsLock), ("capital", .capsLock)]

/-- The function key of a lowered name: `f` and a number from 1 to 24. -/
def function? (name : List Char) : Option Key :=
  match name with
  | 'f' :: digits =>
    let number := Number.byte? (String.ofList digits)
    (number.filter fun n => decide (1 ≤ n) && decide (n ≤ 24)).map .function
  | _ => none

/-- The key of a name with its surrounding blanks removed. -/
def ofName (name : List Char) : Except KeyError Key :=
  match name with
  | [] => .error .empty
  | [c] => .ok (.char c.toUpper)
  | cs =>
    match names.lookup (String.ofList (lower cs)) with
    | some key => .ok key
    | none =>
      match function? (lower cs) with
      | some key => .ok key
      | none => .error (.unknown (String.ofList cs))

/-- Reads a key name, ignoring ASCII case and the blanks around it. -/
def parse (s : String) : Except KeyError Key :=
  ofName (trim s.toList)

/-- The name under which a key is shown. -/
def name : Key → String
  | .char c => c.toString
  | .enter => "Enter"
  | .tab => "Tab"
  | .escape => "Escape"
  | .space => "Space"
  | .backspace => "Backspace"
  | .delete => "Delete"
  | .insert => "Insert"
  | .home => "Home"
  | .endKey => "End"
  | .pageUp => "PageUp"
  | .pageDown => "PageDown"
  | .up => "Up"
  | .down => "Down"
  | .left => "Left"
  | .right => "Right"
  | .function n => s!"F{n}"
  | .shift => "Shift"
  | .control => "Control"
  | .alt => "Alt"
  | .metaKey => "Meta"
  | .capsLock => "CapsLock"

/-- A character that is no blank names its own key. -/
theorem parse_singleton {c : Char} (h : isBlank c = false) :
    parse (String.ofList [c]) = .ok (.char c.toUpper) := by
  simp [parse, trim, trimStart, trimEnd, h, ofName]

example : parse " PgUp " = .ok .pageUp := rfl
example : parse "f+07" = .ok (.function 7) := rfl
example : parse "F25" = .error (.unknown "F25") := rfl

end Key

end InputScript
