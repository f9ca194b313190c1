import InputScript.Text.AsciiCase
import InputScript.Text.Blank

/-!
# `InputScript.Source`: script lines split into a name and parameters

A line holds at most one command: a name, then parameters separated by blanks. A
parameter is bare, ending at the next blank, or stands between double quotes, where a
backslash takes the next character as it is (`\n` and `\t` being a line feed and a tab).
A line that is blank or begins with `#` holds no command, and elsewhere a `#` outside
quotes begins a comment.

The reader of comments and the reader of parameters differ in what they call a quote: for
a comment a double quote counts anywhere, for a parameter only where a parameter may
begin.

`items` gives the parameters as they are written and `Item.value` what they stand for.
`length_closing_lt` is why reading them ends. `beforeComment_backslash` and
`beforeComment_quote` say what a backslash and a double quote are to the reader of comments.
-/

set_option autoImplicit false

namespace InputScript

open Text

/-- A parameter as it is written. -/
inductive Item where
  /-- A run of characters without blanks. -/
  | bare (text : List Char)
  /-- What stands between two double quotes, escapes included. -/
  | quoted (body : List Char)
deriving DecidableEq, Repr

namespace Item

/-- What an escaped character stands for. -/
def unescaped (c : Char) : Char :=
  match c with
  | 'n' => '\n'
  | 't' => '\t'
  | c => c

/-- The text that a quoted body stands for. -/
def unescape : List Char → List Char
  | [] => []
  | '\\' :: c :: r => unescaped c :: unescape r
  | c :: r => c :: unescape r

/-- The parameter that an item stands for. -/
def value : Item → String
  | .bare text => String.ofList text
  | .quoted body => String.ofList (unescape body)

/-- Splits what follows an opening quote at the first double quote that no backslash
escapes: the body before it and what follows it. -/
def closing : List Char → Option (List Char × List Char)
  | [] => none
  | '"' :: r => some ([], r)
  -- A backslash at the end hides nothing, and no quote follows.
  | ['\\'] => none
  | '\\' :: c :: r => (closing r).map fun (body, rest) => ('\\' :: c :: body, rest)
  | c :: r => (closing r).map fun (body, rest) => (c :: body, rest)

/-- What follows a closing quote is shorter than what followed the opening one. -/
theorem length_closing_lt {cs body rest : List Char} (h : closing cs = some (body, rest)) :
    rest.length < cs.length := by
  fun_induction closing cs generalizing body rest with
  | case1 => cases h
  | case2 r =>
    cases h
    simp
  | case3 => cases h
  | case4 c r ih =>
    obtain ⟨⟨body', rest'⟩, hr, heq⟩ := Option.map_eq_some_iff.mp h
    cases heq
    have := ih hr
    simp only [List.length_cons]
    omega
  | case5 c r _ _ _ ih =>
    obtain ⟨⟨body', rest'⟩, hr, heq⟩ := Option.map_eq_some_iff.mp h
    cases heq
    have := ih hr
    simp only [List.length_cons]
    omega

end Item

/-- The items of an argument text, or `none` when a quote is not closed. -/
def items (cs : List Char) : Option (List Item) :=
  match cs with
  | [] => some []
  | c :: r =>
    if isBlank c then items r
    else if c = '"' then
      match _h : Item.closing r with
      | none => none
      | some (body, rest) => (items rest).map (.quoted body :: ·)
    else
      (items (r.dropWhile fun d => !isBlank d)).map
        (.bare (c :: r.takeWhile fun d => !isBlank d) :: ·)
termination_by cs.length
decreasing_by
  all_goals simp only [List.length_cons]
  · omega
  · have := Item.length_closing_lt _h
    omega
  · have := (List.dropWhile_sublist (l := r) fun d => !isBlank d).length_le
    omega

/-- The parameters of an argument text, or `none` when a quote is not closed. -/
def splitParams (args : String) : Option (List String) :=
  (items args.toList).map (·.map Item.value)

/-- The part of a line before its comment. A backslash hides the next character, and a
double quote opens or closes a quotation, in which `#` begins no comment. -/
def beforeComment (inQuotes : Bool) : List Char → List Char
  | [] => []
  | ['\\'] => ['\\']
  | '\\' :: c :: r => '\\' :: c :: beforeComment inQuotes r
  | '"' :: r => '"' :: beforeComment (!inQuotes) r
  | c :: r => if c = '#' && !inQuotes then [] else c :: beforeComment inQuotes r

theorem beforeComment_backslash (inQuotes : Bool) (c : Char) (r : List Char) :
    beforeComment inQuotes ('\\' :: c :: r) = '\\' :: c :: beforeComment inQuotes r :=
  rfl

theorem beforeComment_quote (inQuotes : Bool) (r : List Char) :
    beforeComment inQuotes ('"' :: r) = '"' :: beforeComment (!inQuotes) r :=
  rfl

/-- What a script line holds. -/
inductive LineContent where
  /-- No command: a blank line or a comment. -/
  | nothing
  /-- A command and its parameters. -/
  | command (name : String) (params : List String)
  /-- A command whose parameters have an open quote. -/
  | unclosed (name : String)
deriving DecidableEq, Repr

/-- Reads one line. -/
def LineContent.read (line : String) : LineContent :=
  let cs := trim line.toList
  if cs.isEmpty || cs.head? = some '#' then .nothing
  else
    let kept := trim (beforeComment false cs)
    let name := String.ofList (kept.takeWhile fun c => !isBlank c)
    match splitParams (String.ofList (kept.dropWhile fun c => !isBlank c)) with
    | none => .unclosed name
    | some params => .command name params

/-- A command line: its number, counted from one, and what it holds. -/
structure SourceLine where
  number : Nat
  name : String
  params : List String
deriving DecidableEq, Repr

/-- A script split into its command lines. -/
structure Source where
  lines : List SourceLine
  /-- How many lines there are, those without a command included. -/
  lineCount : Nat
deriving DecidableEq, Repr

/-- A line with an open quote. -/
structure UnclosedQuote where
  number : Nat
  name : String
deriving DecidableEq, Repr

namespace Source

/-- The command lines of a text whose first line has the given number. The first line
with an open quote decides the error. -/
def commandLines (number : Nat) : List String → Except UnclosedQuote (List SourceLine)
  | [] => .ok []
  | line :: rest =>
    match LineContent.read line with
    | .nothing => commandLines (number + 1) rest
    | .unclosed name => .error ⟨number, name⟩
    | .command name params =>
      match commandLines (number + 1) rest with
      | .error e => .error e
      | .ok lines => .ok (⟨number, name, params⟩ :: lines)

/-- Splits all lines of a script. -/
def ofLines (lines : List String) : Except UnclosedQuote Source :=
  match commandLines 1 lines with
  | .error e => .error e
  | .ok commands => .ok ⟨commands, lines.length⟩

/-- The name of the command that marks a line as a jump target. -/
def labelName : String := "Label"

/-- Whether a line is a label of the given name. -/
def isLabelFor (name : String) (line : SourceLine) : Bool :=
  sameName line.name labelName && line.params.head? == some name

/-- The number of the line that a jump to `name` means: the first label of that name, or
else the first line, other than the jump's own, whose command has that name. -/
def target? (source : Source) (name : String) (own : Nat) : Option Nat :=
  let label := source.lines.find? (isLabelFor name)
  let command := source.lines.find? fun line =>
    line.number != own && sameName line.name name
  (label.or command).map SourceLine.number

end Source

example : splitParams " a \"b\\n\\\"\"c " = some ["a", "b\n\"", "c"] := by decide +kernel
example : splitParams "a\"b \"" = none := by decide +kernel
example : LineContent.read " Wait 5 # x" = .command "Wait" ["5"] := by decide +kernel

end InputScript
