import InputScript.Command
import InputScript.Source
import InputScript.Text.Quoted

/-!
# `InputScript.Script`: compiled scripts

A compiled script is a list of instructions, one for each line that holds a command, in
source order. Labels are not stored apart: the label table is read off the instructions.

`line_lt_of_mem_take` and `indexForLine_le_length` say what a line number selects.
-/

set_option autoImplicit false

namespace InputScript

open Text

/-- One compiled line. -/
structure Instruction where
  /-- The source line, counted from one. -/
  line : Nat
  /-- The parameters after preparation. -/
  params : List String
  command : Command

namespace Instruction

/-- The name of the instruction's command. -/
def name (i : Instruction) : String :=
  i.command.name

/-- The label that an instruction defines: the first parameter of a command that is
named `Label`. -/
def label? (i : Instruction) : Option String :=
  if i.name = Source.labelName then i.params.head? else none

/-- An instruction in words. -/
def describe (i : Instruction) : String :=
  "Instruction \x7b line: " ++ toString i.line ++ ", name: " ++ quoted i.name ++
    ", parameters: " ++ quotedList i.params ++ " \x7d"

end Instruction

/-- A compiled script. -/
structure Script where
  instructions : List Instruction
  /-- How many source lines there are, those without a command included. -/
  lineCount : Nat

namespace Script

/-- The number of instructions. -/
def length (s : Script) : Nat :=
  s.instructions.length

/-- The index of the first instruction at or after a source line, or the number of
instructions when there is none. -/
def indexForLine (s : Script) (line : Nat) : Nat :=
  (s.instructions.takeWhile fun i => decide (i.line < line)).length

/-- Adds a label to a table that is sorted by name; a name that is there keeps its
index. -/
def addLabel (name : String) (index : Nat) : List (String × Nat) → List (String × Nat)
  | [] => [(name, index)]
  | (other, at_) :: rest =>
    if name = other then (other, at_) :: rest
    else if name < other then (name, index) :: (other, at_) :: rest
    else (other, at_) :: addLabel name index rest

/-- Adds the labels of instructions whose first one has the given index. -/
def addLabels (index : Nat) (table : List (String × Nat)) :
    List Instruction → List (String × Nat)
  | [] => table
  | i :: rest =>
    match i.label? with
    | none => addLabels (index + 1) table rest
    | some name => addLabels (index + 1) (addLabel name index table) rest

/-- The labels with the indices of their first instructions, sorted by name. -/
def labels (s : Script) : List (String × Nat) :=
  addLabels 0 [] s.instructions

/-- A line never selects an index past the end. -/
theorem indexForLine_le_length (s : Script) (line : Nat) : s.indexForLine line ≤ s.length :=
  (List.takeWhile_sublist _).length_le

/-- The instructions before the selected index lie before the line. -/
theorem line_lt_of_mem_take {s : Script} {line : Nat} {i : Instruction}
    (h : i ∈ s.instructions.take (s.indexForLine line)) : i.line < line := by
  have htake : s.instructions.take (s.indexForLine line) =
      s.instructions.takeWhile fun i => decide (i.line < line) := by
    rw [indexForLine, ← List.prefix_iff_eq_take.mp (List.takeWhile_prefix _)]
  rw [htake] at h
  exact of_decide_eq_true (List.all_eq_true.mp List.all_takeWhile i h)

end Script

end InputScript
