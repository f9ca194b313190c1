import InputScript.Engine.Event
import InputScript.Script
import InputScript.Text.Quoted

/-!
# `InputScript.Log`: records of what happens

A record has a level, an origin, a message and named values. Compiling a script gives one
record, and events give at most one each: telling a callback is not logged, nor is an
effect that was asked for in vain.

The device `Log.device` performs an effect by logging it, and it never fails.

On a line of the log the values follow the message, and characters that would control a
terminal are written by their codes in the message and with escapes in the values.
-/

set_option autoImplicit false

namespace InputScript

namespace Log

/-- How much a record matters. -/
inductive Level where
  | debug
  | info
  | warning
deriving DecidableEq, Repr

/-- The name under which a level is shown. -/
def Level.name : Level → String
  | debug => "DEBUG"
  | info => "INFO"
  | warning => "WARN"

/-- Where a record comes from. -/
inductive Origin where
  | compiler
  | engine
  /-- The device that performs effects. -/
  | device
deriving DecidableEq, Repr

/-- The name under which an origin is shown. -/
def Origin.name : Origin → String
  | compiler => "automate::compiler"
  | engine => "automate::engine"
  | device => "effector"

/-- A value in a record. -/
inductive Value where
  | number (n : Nat)
  | text (s : String)
deriving DecidableEq, Repr

namespace Value

/-- A value as it is. -/
def plain : Value → String
  | number n => toString n
  | text s => s

/-- A value on a line: texts stand between quotes. -/
def shown : Value → String
  | number n => toString n
  | text s => Text.quoted s

end Value

/-- One entry of the log. -/
structure Record where
  level : Level
  origin : Origin
  message : String
  values : List (String × Value)
deriving DecidableEq, Repr

/-- The record of a script that was compiled. -/
def compiled (s : Script) : Record :=
  ⟨.debug, .compiler, "compiled script",
    [("instructions", .number s.length), ("lines", .number s.lineCount)]⟩

/-- Performs an effect by logging it: the record and the reply. -/
def perform (effect : Effect) : Record × Reply :=
  (⟨.info, .device, effect.describe, []⟩, .done)

/-- The device that only logs effects. -/
def device : Device := fun _ effect => (perform effect).2

/-- The record of an event, if it is logged. -/
def ofEvent : Event → Option Record
  | .started instructions lineDelay =>
    some ⟨.info, .engine, "script started",
      [("instructions", .number instructions), ("line_delay_ms", .number lineDelay)]⟩
  | .startIgnored =>
    some ⟨.debug, .engine, "start ignored: a script is already running", []⟩
  | .startRefused => some ⟨.warning, .engine, "cannot start script", []⟩
  | .executing line command =>
    some ⟨.debug, .engine, "execute", [("line", .number line), ("command", .text command)]⟩
  | .performed effect => some (perform effect).1
  | .refused _ => none
  | .jumped source target =>
    some ⟨.debug, .engine, "jump", [("from", .number source), ("to", .number target)]⟩
  | .stopRequested => some ⟨.debug, .engine, "stop requested", []⟩
  | .ended .completed => some ⟨.info, .engine, "script completed", []⟩
  | .ended .stopped => some ⟨.info, .engine, "script stopped", []⟩
  | .ended (.failed e) => some ⟨.warning, .engine, s!"script failed: {e.message}", []⟩
  | .notified .. => none

/-- The records of events, in the same order. -/
def ofEvents (events : List (Nat × Event)) : List Record :=
  events.filterMap fun (_, event) => ofEvent event

/-! ### Lines -/

/-- A character of a message: those that control a terminal are written by their codes. -/
def printable (c : Char) : String :=
  if c = '\x1b' || c = '\x07' || c = '\x08' || c = '\x0c' || c = '\x7f' then
    "\\x" ++ (if c.toNat < 0x10 then "0" else "") ++ Text.hex c.toNat
  else if 0x80 ≤ c.toNat && c.toNat ≤ 0x9f then "\\u\x7b" ++ Text.hex c.toNat ++ "\x7d"
  else c.toString

/-- A record on one line. -/
def Record.line (r : Record) : String :=
  r.level.name ++ " " ++ r.origin.name ++ ": " ++
    " ".intercalate (String.join (r.message.toList.map printable) ::
      r.values.map fun (name, value) => name ++ "=" ++ value.shown)

/-- Whether a record is written. Details are written only on request. -/
def Record.isWritten (verbose : Bool) (r : Record) : Bool :=
  verbose || r.level != .debug

/-- An event is logged unless it is a callback call or an effect in vain. -/
theorem ofEvent_eq_none_iff (e : Event) :
    ofEvent e = none ↔
      (∃ callback outcome running, e = .notified callback outcome running) ∨
        ∃ effect, e = .refused effect := by
  cases e with
  | ended outcome => cases outcome <;> simp [ofEvent]
  | _ => simp [ofEvent]

end Log

end InputScript
