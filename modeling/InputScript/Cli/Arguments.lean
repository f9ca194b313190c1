/-!
# `InputScript.Cli.Arguments`: options and operands

An argument is an option if it begins with a dash and is not a single dash; anything else
is an operand, and so is everything after a double dash. An option has a long name and
perhaps a letter. Letters can be run together, and a value may follow its option in the
same argument, with or without an equals sign, or in the next one, which must not look
like an option. No option may be given twice.

`read_operands` says that arguments without dashes are all operands.
-/

set_option autoImplicit false

namespace InputScript.Cli

/-- An option. -/
structure Switch where
  long : String
  letter : Option Char
  takesValue : Bool
deriving DecidableEq, Repr

/-- Why arguments are refused. -/
inductive UsageError where
  | unknownOption (text : String)
  | missingValue (option : String)
  | unexpectedValue (option : String)
  | repeatedOption (option : String)
  | invalidValue (option text : String)
  | missingOperand (name : String)
  | unexpectedOperand (text : String)
  | missingCommand
  | unknownCommand (text : String)
deriving DecidableEq, Repr

/-- The wording of a usage error. -/
def UsageError.message : UsageError → String
  | unknownOption text => s!"unexpected argument '{text}' found"
  | missingValue option => s!"a value is required for '--{option}' but none was supplied"
  | unexpectedValue option => s!"no value is expected for '--{option}'"
  | repeatedOption option => s!"the argument '--{option}' cannot be used multiple times"
  | invalidValue option text => s!"invalid value '{text}' for '--{option}'"
  | missingOperand name => s!"the argument <{name}> was not provided"
  | unexpectedOperand text => s!"unexpected argument '{text}' found"
  | missingCommand => "a command is required but none was provided"
  | unknownCommand text => s!"unrecognized command '{text}'"

/-- Arguments taken apart. -/
structure Arguments where
  /-- The options by their long names, with their values if they take one. -/
  options : List (String × String)
  operands : List String
deriving DecidableEq, Repr

/-- An option as it was read: what it gives, and the option that still needs a value. -/
structure Reading where
  options : List (String × String)
  wanting : Option Switch

/-- Whether an argument is an option. -/
def isOption (arg : String) : Bool :=
  match arg.toList with
  | '-' :: _ :: _ => true
  | _ => false

/-- Reads what follows the two dashes of a long option. -/
def readLong (switches : List Switch) (body : List Char) : Except UsageError Reading :=
  let name := String.ofList (body.takeWhile (· != '='))
  match switches.find? (·.long == name) with
  | none => .error (.unknownOption ("--" ++ name))
  | some switch =>
    match body.dropWhile (· != '=') with
    | _ :: value =>
      if switch.takesValue then .ok ⟨[(name, String.ofList value)], none⟩
      else .error (.unexpectedValue name)
    | [] => if switch.takesValue then .ok ⟨[], some switch⟩ else .ok ⟨[(name, "")], none⟩

/-- Reads what follows the dash of options that are given by letters. -/
def readLetters (switches : List Switch) : List Char → Except UsageError Reading
  | [] => .ok ⟨[], none⟩
  | c :: rest =>
    match switches.find? (·.letter == some c) with
    | none => .error (.unknownOption ("-" ++ c.toString))
    | some switch =>
      if switch.takesValue then
        match rest with
        | [] => .ok ⟨[], some switch⟩
        | '=' :: value => .ok ⟨[(switch.long, String.ofList value)], none⟩
        | value => .ok ⟨[(switch.long, String.ofList value)], none⟩
      else
        match readLetters switches rest with
        | .error e => .error e
        | .ok reading => .ok { reading with options := (switch.long, "") :: reading.options }

/-- Reads one argument that is an option. -/
def readOption (switches : List Switch) (arg : String) : Except UsageError Reading :=
  match arg.toList with
  | '-' :: '-' :: body => readLong switches body
  | _ :: letters => readLetters switches letters
  | [] => .ok ⟨[], none⟩

/-- Puts options in front. -/
def Arguments.withOptions (options : List (String × String)) (a : Arguments) : Arguments :=
  { a with options := options ++ a.options }

/-- Takes arguments apart, repeated options allowed. -/
def split (switches : List Switch) : List String → Except UsageError Arguments
  | [] => .ok ⟨[], []⟩
  | arg :: rest =>
    -- After a double dash nothing is an option.
    if arg = "--" then .ok ⟨[], rest⟩
    else if isOption arg then
      match readOption switches arg with
      | .error e => .error e
      | .ok ⟨options, none⟩ =>
        match split switches rest with
        | .error e => .error e
        | .ok a => .ok (a.withOptions options)
      | .ok ⟨options, some switch⟩ =>
        match rest with
        | [] => .error (.missingValue switch.long)
        | value :: others =>
          -- A value that looks like an option has to be given with an equals sign.
          if isOption value then .error (.missingValue switch.long)
          else
            match split switches others with
            | .error e => .error e
            | .ok a => .ok (a.withOptions (options ++ [(switch.long, value)]))
    else
      match split switches rest with
      | .error e => .error e
      | .ok a => .ok { a with operands := arg :: a.operands }

/-- The first option that is given again later. -/
def repeated? : List (String × String) → Option String
  | [] => none
  | (name, _) :: rest =>
    if rest.any (·.1 == name) then some name else repeated? rest

namespace Arguments

/-- Takes arguments apart. -/
def read (switches : List Switch) (args : List String) : Except UsageError Arguments :=
  match split switches args with
  | .error e => .error e
  | .ok a =>
    match repeated? a.options with
    | some name => .error (.repeatedOption name)
    | none => .ok a

/-- Whether an option is given. -/
def has (a : Arguments) (name : String) : Bool :=
  a.options.any (·.1 == name)

/-- The value of an option. -/
def value? (a : Arguments) (name : String) : Option String :=
  a.options.lookup name

/-- Arguments without dashes are all operands. -/
theorem read_operands (switches : List Switch) {args : List String}
    (h : ∀ arg ∈ args, isOption arg = false) : read switches args = .ok ⟨[], args⟩ := by
  have hsplit : split switches args = .ok ⟨[], args⟩ := by
    induction args with
    | nil => rfl
    | cons arg rest ih =>
      have harg := h arg (List.mem_cons_self ..)
      have hne : arg ≠ "--" := by
        rintro rfl
        exact absurd harg (by decide)
      simp [split, hne, harg, ih fun a ha => h a (List.mem_cons_of_mem _ ha)]
  simp [read, hsplit, repeated?]

end Arguments

end InputScript.Cli
