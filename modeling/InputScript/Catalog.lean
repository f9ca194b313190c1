import InputScript.Command.Prepare
import InputScript.Text.Quoted

/-!
# `InputScript.Catalog`: the commands a script may use

A catalog is an ordered list of descriptors, looked up by name ignoring ASCII case. A
name that is already there cannot be registered again.

`Catalog.builtin` holds the thirteen built-in commands in their usual order.
`find?_register_self` and `find?_register_of_find?` say what a registration changes.
-/

set_option autoImplicit false

namespace InputScript

open Text

/-- A catalog entry: what a command is called, how many parameters it takes, how it is
written, and what it makes. -/
structure Descriptor where
  name : String
  arity : Arity
  usage : String
  kind : CommandKind

/-- An entry in words. -/
def Descriptor.describe (d : Descriptor) : String :=
  "CommandDescriptor \x7b name: " ++ quoted d.name ++ ", arity: Arity \x7b min: " ++
    toString d.arity.min ++ ", max: " ++ toString d.arity.max ++ " \x7d, .. \x7d"

/-- Why a catalog refuses a name. -/
inductive CatalogError where
  | unknown (name : String)
  | duplicate (name : String)
deriving DecidableEq, Repr

/-- The wording of a catalog error. -/
def CatalogError.message : CatalogError → String
  | .unknown name => s!"unknown command: {name}"
  | .duplicate name => s!"command already registered: {name}"

/-- Commands in the order of their registration. -/
structure Catalog where
  entries : List Descriptor

namespace Catalog

/-- The catalog without commands. -/
def empty : Catalog := ⟨[]⟩

/-- The entry of a name, if there is one. -/
def find? (catalog : Catalog) (name : String) : Option Descriptor :=
  catalog.entries.find? fun d => sameName d.name name

/-- The entry of a name. -/
def lookup (catalog : Catalog) (name : String) : Except CatalogError Descriptor :=
  match catalog.find? name with
  | none => .error (.unknown name)
  | some d => .ok d

/-- Adds an entry at the end, unless its name is taken: the answer and the catalog after
it. -/
def register (catalog : Catalog) (d : Descriptor) : Except CatalogError Unit × Catalog :=
  match catalog.lookup d.name with
  | .ok _ => (.error (.duplicate d.name), catalog)
  | .error _ => (.ok (), ⟨catalog.entries ++ [d]⟩)

/-- Registers entries one after the other; the first refusal decides. -/
def registerAll (catalog : Catalog) : List Descriptor → Except CatalogError Catalog
  | [] => .ok catalog
  | d :: rest =>
    match catalog.register d with
    | (.error e, _) => .error e
    | (.ok (), extended) => extended.registerAll rest

/-- The names of the commands, in order. -/
def names (catalog : Catalog) : List String :=
  catalog.entries.map Descriptor.name

/-- The entry of a built-in command. -/
def descriptor (b : Builtin) (arity : Arity) (usage : String) : Descriptor :=
  ⟨b.name, arity, usage, .builtin b⟩

/-- The built-in commands. -/
def builtin : Catalog := ⟨[
  descriptor .call (.exactly 1) "Call <line|name>",
  descriptor .label (.exactly 1) "Label <name>",
  descriptor .wait ⟨1, 2⟩ "Wait <ms> [max ms]",
  descriptor .stop (.exactly 0) "Stop",
  descriptor .keyDown (.exactly 1) "KeyDown <key>",
  descriptor .keyUp (.exactly 1) "KeyUp <key>",
  descriptor .keyPress (.exactly 1) "KeyPress <key|Mod+Key>",
  descriptor .typeText ⟨1, 2⟩ "KeyPressText \"text\" [delay ms]",
  descriptor .mouseMove (.exactly 2) "MouseMove <x> <y>",
  descriptor .mouseDown ⟨0, 1⟩ "MouseDown [button]",
  descriptor .mouseUp ⟨0, 1⟩ "MouseUp [button]",
  descriptor .mouseClick ⟨0, 1⟩ "MouseClick [button]",
  descriptor .mouseWheel (.exactly 1) "MouseWheel <delta>"]⟩

/-- What is found under a name has that name, but for the case of its letters. -/
theorem sameName_of_find? {catalog : Catalog} {d : Descriptor} {name : String}
    (h : catalog.find? name = some d) : sameName d.name name = true :=
  List.find?_some (p := fun d : Descriptor => sameName d.name name) h

/-- A lookup fails if no entry has the name. -/
theorem lookup_of_find? {catalog : Catalog} {name : String} (h : catalog.find? name = none) :
    catalog.lookup name = .error (.unknown name) := by
  simp [lookup, h]

/-- A name that is taken is refused, and the catalog stays as it is. -/
theorem register_of_taken {catalog : Catalog} {d found : Descriptor}
    (h : catalog.find? d.name = some found) :
    catalog.register d = (.error (.duplicate d.name), catalog) := by
  simp [register, lookup, h]

/-- A free name is added at the end. -/
theorem register_of_free {catalog : Catalog} {d : Descriptor}
    (h : catalog.find? d.name = none) :
    catalog.register d = (.ok (), ⟨catalog.entries ++ [d]⟩) := by
  simp [register, lookup_of_find? h]

/-- A registration succeeds exactly if the name is free. -/
theorem register_eq_ok_iff {catalog extended : Catalog} {d : Descriptor} :
    catalog.register d = (.ok (), extended) ↔
      catalog.find? d.name = none ∧ extended = ⟨catalog.entries ++ [d]⟩ := by
  cases h : catalog.find? d.name with
  | none => simp [register_of_free h, eq_comm]
  | some found => simp [register_of_taken h]

/-- An entry is found under its own name once it is registered. -/
theorem find?_register_self {catalog extended : Catalog} {d : Descriptor}
    (h : catalog.register d = (.ok (), extended)) : extended.find? d.name = some d := by
  obtain ⟨hnone, rfl⟩ := register_eq_ok_iff.mp h
  simp only [find?] at hnone
  simp [find?, List.find?_append, hnone]

/-- A registration hides no entry that was there. -/
theorem find?_register_of_find? {catalog extended : Catalog} {d found : Descriptor}
    {name : String} (h : catalog.register d = (.ok (), extended))
    (hfound : catalog.find? name = some found) : extended.find? name = some found := by
  obtain ⟨-, rfl⟩ := register_eq_ok_iff.mp h
  simp only [find?] at hfound
  simp [find?, List.find?_append, hfound]

end Catalog

end InputScript
