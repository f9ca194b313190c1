import InputScript.Proofs.Source.Written

/-!
# `InputScript.Proofs.Source.Quoting`: a command line that is written out is read back

Any text can be a parameter, if it is written between double quotes and a backslash comes
before each backslash and each double quote in it. Line feeds, blanks and `#` need no escape.
`writeLine` writes a line so, which is one of the ways of the format.

* `writesBody_escape`, `writesParams_quoteAll`: what is written out is in the format.
* `read_writeLine`: a whole line.
-/

set_option autoImplicit false

namespace InputScript

open Text

/-- A text as it is written between two double quotes. -/
def Item.escape : List Char → List Char
  | [] => []
  | c :: r => if c = '\\' ∨ c = '"' then '\\' :: c :: escape r else c :: escape r

/-- Escaping is a way to write a text. -/
theorem writesBody_escape (cs : List Char) : WritesBody cs (Item.escape cs) := by
  induction cs with
  | nil => exact .nil
  | cons c cs ih =>
    rw [Item.escape]
    split
    · rename_i h
      exact .cons (.escaped h) ih
    · rename_i h
      exact .cons (.plain (fun hc => h (.inl hc)) (fun hc => h (.inr hc))) ih

/-- A parameter between double quotes. -/
def quote (param : String) : List Char :=
  '"' :: (Item.escape param.toList ++ ['"'])

/-- Parameters between double quotes, each behind a blank. -/
def quoteAll (params : List String) : List Char :=
  params.flatMap fun param => ' ' :: quote param

/-- A line with a command. -/
def writeLine (name : String) (params : List String) : String :=
  String.ofList (name.toList ++ quoteAll params)

/-- A name that can be written without quotes. -/
structure IsPlainName (name : String) : Prop where
  ne_nil : name.toList ≠ []
  plain : ∀ c ∈ name.toList, isBlank c = false ∧ c ≠ '#' ∧ c ≠ '"' ∧ c ≠ '\\'

theorem IsPlainName.isWord {name : String} (h : IsPlainName name) : IsWord name.toList where
  ne_nil := h.ne_nil
  plain := fun c hc => ⟨(h.plain c hc).1, (h.plain c hc).2.1, (h.plain c hc).2.2.1⟩

/-- Quoting is a way to write parameters. -/
theorem writesParams_quoteAll (params : List String) : WritesParams params (quoteAll params) := by
  induction params with
  | nil => exact .nil
  | cons param params ih =>
    have hblank : IsGap [' '] := by decide
    exact .cons hblank (List.cons_ne_nil ' ' []) (.quoted (writesBody_escape param.toList)) ih

/-- A command line that is written out is read back. -/
theorem read_writeLine {name : String} (h : IsPlainName name) (params : List String) :
    LineContent.read (writeLine name params) = .command name params := by
  have hnone : IsGap [] := by decide
  have hline := WritesLine.line hnone h.isWord (writesParams_quoteAll params) (.blank hnone)
  rw [List.nil_append, List.append_nil] at hline
  exact read_of_writesLine hline

end InputScript
