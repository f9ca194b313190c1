import InputScript.Command
import InputScript.Source

/-!
# `InputScript.Command.Prepare`: reading the parameters of a command

Preparing a command checks its parameters and finds its jump target, looking at the
whole script. It gives the prepared command together with the parameters as they are
kept; only a jump to a name changes one, to the number of its line.

`Builtin.prepare` covers the built-in commands. A custom command brings its own way of
being prepared; either way `CommandKind.name_of_prepare` keeps the name.
-/

set_option autoImplicit false

namespace InputScript

open Number

/-- Why the parameters of a command are refused. -/
inductive ParamError where
  | unclosedQuote
  /-- The command takes another number of parameters. -/
  | count (expected : Arity) (got : Nat)
  | missing (what : String)
  | invalid (what raw : String)
  /-- A label that a jump would read as a line number. -/
  | numericLabel (name : String)
  | span (error : SpanError)
  /-- Bounds in the wrong order, in whole milliseconds. -/
  | reversed (upper lower : Nat)
  | key (error : KeyError)
  | button (text : String)
  /-- A reason given by a custom command. -/
  | custom (reason : String)
deriving DecidableEq, Repr

/-- The wording of a refusal. -/
def ParamError.message : ParamError → String
  | .unclosedQuote => "unclosed quote"
  | .count expected got => s!"expected {expected.describe}, got {got}"
  | .missing what => s!"missing {what}"
  | .invalid what raw => s!"invalid {what}: '{raw}'"
  | .numericLabel name => s!"label '{name}' would be read as a line number"
  | .span e => e.message
  | .reversed upper lower => s!"upper bound {upper}ms is below lower bound {lower}ms"
  | .key e => e.message
  | .button text => Button.unknownMessage text
  | .custom reason => reason

/-- Why a command cannot be prepared. -/
inductive PrepareError where
  | invalid (reason : ParamError)
  /-- No line answers to this name. -/
  | unresolved (name : String)
deriving DecidableEq, Repr

/-- What a command sees while it is prepared: its line, its parameters and the whole
script. -/
structure Scope where
  line : Nat
  params : List String
  source : Source
deriving DecidableEq, Repr

namespace Scope

/-- A parameter, counted from zero. -/
def param? (scope : Scope) (index : Nat) : Option String :=
  scope.params[index]?

/-- A parameter, or the empty text when it is absent. -/
def paramD (scope : Scope) (index : Nat) : String :=
  (scope.param? index).getD ""

/-- Reads a parameter that is called `what` in the errors. -/
def read {α : Type} (scope : Scope) (index : Nat) (what : String)
    (reader : String → Option α) : Except PrepareError α :=
  match scope.param? index with
  | none => .error (.invalid (.missing what))
  | some raw =>
    match reader raw with
    | none => .error (.invalid (.invalid what raw))
    | some value => .ok value

/-- The line that a jump from here to `name` means. -/
def target? (scope : Scope) (name : String) : Option Nat :=
  scope.source.target? name scope.line

/-- The parameters with one of them replaced; nothing happens where there is none. -/
def setParam (scope : Scope) (index : Nat) (value : String) : List String :=
  scope.params.set index value

/-- A key parameter; an absent one is the empty text. -/
def key (scope : Scope) : Except PrepareError Key :=
  match Key.parse (scope.paramD 0) with
  | .error e => .error (.invalid (.key e))
  | .ok key => .ok key

/-- A chord parameter; an absent one is the empty text. -/
def chord (scope : Scope) : Except PrepareError Chord :=
  match Chord.parse (scope.paramD 0) with
  | .error e => .error (.invalid (.key e))
  | .ok chord => .ok chord

/-- A button parameter; an absent one is the left button. -/
def button (scope : Scope) : Except PrepareError Button :=
  match scope.param? 0 with
  | none => .ok .left
  | some raw =>
    match Button.parse? raw with
    | none => .error (.invalid (.button raw))
    | some button => .ok button

/-- A span given as text. -/
def span (raw : String) : Except PrepareError Span :=
  match Span.parse raw with
  | .error e => .error (.invalid (.span e))
  | .ok span => .ok span

/-- A span parameter, or a given span when it is absent. -/
def spanD (scope : Scope) (index : Nat) (absent : Span) : Except PrepareError Span :=
  match scope.param? index with
  | none => .ok absent
  | some raw => span raw

end Scope

/-- A prepared command with the parameters that are kept for it. -/
structure Prepared where
  params : List String
  command : Command

namespace Builtin

/-- A jump: to a line by its number, or to the line that answers to a name. -/
def prepareCall (scope : Scope) : Except PrepareError Prepared :=
  match scope.param? 0 with
  | none => .error (.invalid (.missing "jump target"))
  | some raw =>
    match integer64? raw with
    -- A line number is kept as it is, whether there is such a line or not.
    | some line => .ok ⟨scope.params, .call line⟩
    | none =>
      match scope.target? raw with
      | none => .error (.unresolved raw)
      | some line => .ok ⟨scope.setParam 0 (toString line), .call line⟩

/-- A label: any text that is no line number. -/
def prepareLabel (scope : Scope) : Except PrepareError Prepared :=
  let name := scope.paramD 0
  match integer64? name with
  | some _ => .error (.invalid (.numericLabel name))
  | none => .ok ⟨scope.params, .label name⟩

/-- A pause: one span, or two that bound it. -/
def prepareWait (scope : Scope) : Except PrepareError Prepared := do
  let min ← Scope.span (scope.paramD 0)
  let max ← scope.spanD 1 min
  if max.nanos < min.nanos then .error (.invalid (.reversed max.millis min.millis))
  else .ok ⟨scope.params, .wait min max⟩

/-- A text to type and the pause between its characters. -/
def prepareTypeText (scope : Scope) : Except PrepareError Prepared := do
  let delay ← scope.spanD 1 .zero
  pure ⟨scope.params, .typeText (scope.paramD 0) delay⟩

/-- Screen coordinates, the first one being read first. -/
def prepareMouseMove (scope : Scope) : Except PrepareError Prepared := do
  let x ← scope.read 0 "x coordinate" integer32?
  let y ← scope.read 1 "y coordinate" integer32?
  pure ⟨scope.params, .mouseMove x y⟩

/-- Prepares a built-in command. -/
def prepare (b : Builtin) (scope : Scope) : Except PrepareError Prepared :=
  match b with
  | .call => prepareCall scope
  | .label => prepareLabel scope
  | .wait => prepareWait scope
  | .stop => .ok ⟨scope.params, .stop⟩
  | .keyDown => do pure ⟨scope.params, .keyDown (← scope.key)⟩
  | .keyUp => do pure ⟨scope.params, .keyUp (← scope.key)⟩
  | .keyPress => do pure ⟨scope.params, .keyPress (← scope.chord)⟩
  | .typeText => prepareTypeText scope
  | .mouseMove => prepareMouseMove scope
  | .mouseDown => do pure ⟨scope.params, .mouseDown (← scope.button)⟩
  | .mouseUp => do pure ⟨scope.params, .mouseUp (← scope.button)⟩
  | .mouseClick => do pure ⟨scope.params, .mouseClick (← scope.button)⟩
  | .mouseWheel => do
    pure ⟨scope.params, .mouseWheel (← scope.read 0 "wheel delta" integer32?)⟩

end Builtin

/-- What a catalog entry makes: a built-in command, or a custom one, which is prepared
into the parameters that are kept and a program. -/
inductive CommandKind where
  | builtin (command : Builtin)
  | custom (name : String) (prepare : Scope → Except PrepareError (List String × Program))

namespace CommandKind

/-- The name of the commands of a kind. -/
def name : CommandKind → String
  | builtin b => b.name
  | custom name _ => name

/-- Prepares a command of a kind. -/
def prepare (kind : CommandKind) (scope : Scope) : Except PrepareError Prepared :=
  match kind with
  | builtin b => b.prepare scope
  | custom name prepare =>
    match prepare scope with
    | .error e => .error e
    | .ok (params, program) => .ok ⟨params, .custom name program⟩

/-- Preparing a built-in command keeps its name. -/
theorem name_of_prepare_builtin {b : Builtin} {scope : Scope} {p : Prepared}
    (h : b.prepare scope = .ok p) : p.command.name = b.name := by
  cases b with
  | call =>
    simp only [Builtin.prepare, Builtin.prepareCall] at h
    split at h
    · cases h
    · split at h
      · cases h; rfl
      · split at h <;> cases h; rfl
  | label =>
    simp only [Builtin.prepare, Builtin.prepareLabel] at h
    split at h <;> cases h; rfl
  | wait =>
    simp only [Builtin.prepare, Builtin.prepareWait, bind, Except.bind] at h
    split at h
    · cases h
    · split at h
      · cases h
      · split at h <;> cases h; rfl
  | stop => cases h; rfl
  | typeText =>
    simp only [Builtin.prepare, Builtin.prepareTypeText, bind, Except.bind] at h
    split at h <;> cases h; rfl
  | mouseMove =>
    simp only [Builtin.prepare, Builtin.prepareMouseMove, bind, Except.bind] at h
    split at h
    · cases h
    · split at h <;> cases h; rfl
  | keyDown | keyUp | keyPress | mouseDown | mouseUp | mouseClick | mouseWheel =>
    simp only [Builtin.prepare, bind, Except.bind] at h
    split at h <;> cases h; rfl

/-- Preparing a command keeps its name. -/
theorem name_of_prepare {kind : CommandKind} {scope : Scope} {p : Prepared}
    (h : kind.prepare scope = .ok p) : p.command.name = kind.name := by
  cases kind with
  | builtin b => exact name_of_prepare_builtin h
  | custom name prepare =>
    simp only [CommandKind.prepare] at h
    split at h <;> cases h; rfl

end CommandKind

end InputScript
