import InputScript.Catalog
import InputScript.FileError
import InputScript.Script
import InputScript.Text.Lines

/-!
# `InputScript.Script.Compile`: from lines to a script

All lines are split before any command is looked up, so an open quote on a late line
wins over an unknown command on an early one. The lines are then compiled in order and
the first that fails decides the error.

`lines_of_compileLines`: there is one instruction for each command line, in order, and it
carries the number of that line.
-/

set_option autoImplicit false

namespace InputScript

/-- Why a script does not compile. -/
inductive CompileError where
  | unknownCommand (name : String) (line : Nat)
  | invalidParameters (command : String) (line : Nat) (reason : ParamError)
  | unresolvedTarget (name : String) (line : Nat)
  /-- The script file cannot be read. -/
  | unreadable (path : String) (cause : FileError)
deriving DecidableEq, Repr

namespace CompileError

/-- The wording of a compile error. -/
def message : CompileError → String
  | unknownCommand name line => s!"line {line}: unknown command '{name}'"
  | invalidParameters command line reason =>
    s!"line {line}: invalid parameters for '{command}': {reason.message}"
  | unresolvedTarget name line => s!"line {line}: cannot resolve jump target '{name}'"
  | unreadable path cause => s!"failed to read script file {path}: {cause.message}"

/-- The line that an error refers to, if any. -/
def line? : CompileError → Option Nat
  | unknownCommand _ line => some line
  | invalidParameters _ line _ => some line
  | unresolvedTarget _ line => some line
  | unreadable .. => none

end CompileError

namespace Catalog

/-- Compiles one command line of a script. -/
def compileLine (catalog : Catalog) (source : Source) (line : SourceLine) :
    Except CompileError Instruction :=
  match catalog.find? line.name with
  | none => .error (.unknownCommand line.name line.number)
  | some d =>
    if d.arity.accepts line.params.length then
      match d.kind.prepare ⟨line.number, line.params, source⟩ with
      | .ok prepared => .ok ⟨line.number, prepared.params, prepared.command⟩
      | .error (.invalid reason) => .error (.invalidParameters d.name line.number reason)
      | .error (.unresolved name) => .error (.unresolvedTarget name line.number)
    else
      .error (.invalidParameters d.name line.number (.count d.arity line.params.length))

/-- Compiles command lines in order. -/
def compileLines (catalog : Catalog) (source : Source) :
    List SourceLine → Except CompileError (List Instruction)
  | [] => .ok []
  | line :: rest =>
    match catalog.compileLine source line with
    | .error e => .error e
    | .ok instruction =>
      match catalog.compileLines source rest with
      | .error e => .error e
      | .ok instructions => .ok (instruction :: instructions)

/-- Compiles a list of lines. -/
def compile (catalog : Catalog) (lines : List String) : Except CompileError Script :=
  match Source.ofLines lines with
  | .error e => .error (.invalidParameters e.name e.number .unclosedQuote)
  | .ok source =>
    match catalog.compileLines source source.lines with
    | .error e => .error e
    | .ok instructions => .ok ⟨instructions, source.lineCount⟩

/-- Compiles a text. -/
def compileText (catalog : Catalog) (text : String) : Except CompileError Script :=
  catalog.compile (Text.lines text)

/-- Compiles what was read from a file with the built-in commands. -/
def compileFile (path : String) (content : Except FileError String) :
    Except CompileError Script :=
  match content with
  | .error cause => .error (.unreadable path cause)
  | .ok text => builtin.compileText text

/-- A compiled line keeps its number. -/
theorem line_of_compileLine {catalog : Catalog} {source : Source} {line : SourceLine}
    {i : Instruction} (h : catalog.compileLine source line = .ok i) :
    i.line = line.number := by
  simp only [compileLine] at h
  split at h
  · cases h
  · split at h
    · split at h <;> cases h
      rfl
    · cases h

/-- Compiled lines keep their numbers and their order. -/
theorem lines_of_compileLines {catalog : Catalog} {source : Source} {lines : List SourceLine}
    {is : List Instruction} (h : catalog.compileLines source lines = .ok is) :
    is.map Instruction.line = lines.map SourceLine.number := by
  induction lines generalizing is with
  | nil =>
    cases h
    rfl
  | cons line rest ih =>
    simp only [compileLines] at h
    split at h
    · cases h
    · rename_i i hi
      split at h
      · cases h
      · rename_i js hjs
        cases h
        simp [line_of_compileLine hi, ih hjs]

end Catalog

end InputScript
