/-!
# `InputScript.Json.Fault`: what is wrong with a JSON text

A text can end too soon, fail to be JSON, or be JSON that holds something else than what
is asked for. A reading reports the first fault that it meets, going from left to right.

The blanks between JSON symbols are the space, the tab, the line feed and the carriage
return, and no other character.
-/

set_option autoImplicit false

namespace InputScript.Json

/-- What is wrong with a JSON text. -/
inductive Fault where
  /-- The text ends too soon. -/
  | unfinished
  /-- The text is not JSON. -/
  | malformed
  /-- A value has the wrong kind, is out of range or is given twice. -/
  | unsuitable
deriving DecidableEq, Repr

/-- The wording of a fault. -/
def Fault.message : Fault → String
  | unfinished => "the text ends too soon"
  | malformed => "the text is not JSON"
  | unsuitable => "a value is not of the expected kind"

/-- Whether a character may stand between JSON symbols. -/
def isBlank (c : Char) : Bool :=
  c = ' ' || c = '\t' || c = '\n' || c = '\r'

/-- A text without the blanks in front. -/
def dropBlanks (cs : List Char) : List Char :=
  cs.dropWhile isBlank

/-- Reads the given letters and nothing else. -/
def word : List Char → List Char → Except Fault (List Char)
  | [], cs => .ok cs
  | _ :: _, [] => .error .unfinished
  | letter :: letters, c :: cs => if c = letter then word letters cs else .error .malformed

/-- Dropping blanks makes no text longer. -/
theorem length_dropBlanks_le (cs : List Char) : (dropBlanks cs).length ≤ cs.length :=
  (List.dropWhile_sublist _).length_le

/-- What follows a first symbol after blanks is shorter than the text. -/
theorem length_lt_of_dropBlanks {cs rest : List Char} {c : Char}
    (h : dropBlanks cs = c :: rest) : rest.length < cs.length := by
  have hle := length_dropBlanks_le cs
  rw [h] at hle
  exact hle

/-- Reading a word makes no text longer. -/
theorem length_word_le {letters cs rest : List Char} (h : word letters cs = .ok rest) :
    rest.length ≤ cs.length := by
  fun_induction word letters cs with
  | case1 cs =>
    cases h
    exact Nat.le_refl _
  | case2 => cases h
  | case3 letters c cs ih =>
    have := ih h
    simp only [List.length_cons]
    omega
  | case4 => cases h

end InputScript.Json
