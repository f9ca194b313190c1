import InputScript.FileError
import InputScript.Json.Reader
import InputScript.Span
import InputScript.Text.AsciiCase

/-!
# `InputScript.Settings`: saved scripts and delays

The settings hold scripts under their names, each with a line delay and possibly a
hotkey, and the delay before every run. They are kept in a JSON file: `Settings.render`
writes it with an indentation of two blanks, and `Settings.parse` reads it with every
field optional.

A file that does not exist stands for the default settings; any other trouble with a file
is an error, and so is a text that cannot be read.

`name_of_find?` says that a script is found under a name that differs from its own at
most in ASCII case.
-/

set_option autoImplicit false

namespace InputScript

/-- A saved script. -/
structure SavedScript where
  name : String
  /-- The text of the script. -/
  script : String
  /-- The hotkey in words. Nothing here interprets it. -/
  hotkey : Option String
  lineDelayMillis : UInt64
deriving DecidableEq, Repr

namespace SavedScript

/-- A nameless empty script. -/
def default : SavedScript := ⟨"", "", none, 0⟩

/-- The delay between two lines. -/
def lineDelay (s : SavedScript) : Span :=
  .ofMillis s.lineDelayMillis.toNat

end SavedScript

/-- The saved scripts and the delay before the first line of every run. -/
structure Settings where
  scripts : List SavedScript
  startDelayMillis : UInt64
deriving DecidableEq, Repr

/-- Why settings cannot be loaded or saved. -/
inductive SettingsError where
  | file (path : String) (cause : FileError)
  | content (path : String) (fault : Json.Fault)
deriving DecidableEq, Repr

/-- The wording of a settings error. -/
def SettingsError.message : SettingsError → String
  | file path cause => s!"I/O error on {path}: {cause.message}"
  | content path fault => s!"malformed settings file {path}: {fault.message}"

namespace Settings

/-- No scripts and no delay. -/
def default : Settings := ⟨[], 0⟩

/-- The delay before the first line. -/
def startDelay (s : Settings) : Span :=
  .ofMillis s.startDelayMillis.toNat

/-- The first script of a name, ignoring ASCII case. -/
def find? (s : Settings) (name : String) : Option SavedScript :=
  s.scripts.find? fun saved => Text.sameName saved.name name

/-! ### Writing -/

/-- A list of JSON values, each on lines of its own with the given indentation before it. -/
def renderList (indent : String) (values : List String) : String :=
  if values.isEmpty then "[]"
  else "[\n" ++ ",\n".intercalate (values.map fun v => indent ++ "  " ++ v) ++ "\n" ++
    indent ++ "]"

/-- An object with each field on a line of its own. -/
def renderFields (indent : String) (fields : List (String × String)) : String :=
  "\x7b\n" ++
    ",\n".intercalate (fields.map fun (name, v) => indent ++ "  \"" ++ name ++ "\": " ++ v) ++
    "\n" ++ indent ++ "\x7d"

/-- A script as JSON. -/
def renderScript (s : SavedScript) : String :=
  renderFields "    " [
    ("name", Json.Text.render s.name),
    ("script", Json.Text.render s.script),
    ("hotkey", match s.hotkey with
      | none => "null"
      | some hotkey => Json.Text.render hotkey),
    ("line_delay_ms", toString s.lineDelayMillis.toNat)]

/-- The settings as JSON. -/
def render (s : Settings) : String :=
  renderFields "" [
    ("scripts", renderList "  " (s.scripts.map renderScript)),
    ("script_start_delay_ms", toString s.startDelayMillis.toNat)]

/-! ### Reading -/

open Json

/-- The fields of a script, in the order in which an array gives them. -/
def scriptFields : List (RecordField SavedScript) := [
  .of "name" .text fun s name => { s with name := name },
  .of "script" .text fun s script => { s with script := script },
  .of "hotkey" (.nullable .text) fun s hotkey => { s with hotkey := hotkey },
  .of "line_delay_ms" .natural64 fun s millis => { s with lineDelayMillis := millis }]

/-- The fields of the settings, in the order in which an array gives them. -/
def fields : List (RecordField Settings) := [
  .of "scripts" (.list (.record scriptFields .default)) fun s scripts =>
    { s with scripts := scripts },
  .of "script_start_delay_ms" .natural64 fun s millis => { s with startDelayMillis := millis }]

/-- Reads settings. -/
def parse (text : String) : Except Fault Settings :=
  readAll (.record fields .default) text

/-- The settings in a file, given what reading the file yields. -/
def load (path : String) (content : Except FileError String) :
    Except SettingsError Settings :=
  match content with
  | .error .notFound => .ok default
  | .error cause => .error (.file path cause)
  | .ok text =>
    match parse text with
    | .error fault => .error (.content path fault)
    | .ok s => .ok s

/-- A script is found under its own name but for ASCII case. -/
theorem name_of_find? {s : Settings} {name : String} {found : SavedScript}
    (h : s.find? name = some found) : Text.sameName found.name name = true := by
  unfold find? at h
  simpa using List.find?_some h

end Settings

end InputScript
