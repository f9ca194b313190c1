import InputScript.Catalog
import InputScript.Number.Integer
import InputScript.Text.Numeral

/-!
# `InputScript.Token`: classifying text for display

A text is cut into tokens: words, numbers, quoted literals and single symbols. Nothing
fails, since whatever fits no other class is a symbol. Blanks separate and belong to no
token.

A sign belongs to a number only where the token before it allows one: at the start, after
a blank, and after a symbol other than the plus sign. So `Ctrl+3` holds a plus sign and
the number 3.

`extent` says how many characters a token takes after its first one, which is why the
rest of the text gets shorter with every token. `extent_le_length` says that it stays
inside the text.
-/

set_option autoImplicit false

namespace InputScript

open Number Text

/-- The classes of tokens. -/
inductive TokenKind where
  /-- Any other single character. -/
  | symbol
  /-- Text between double quotes, quotes included. -/
  | literal
  /-- A word that is no keyword. -/
  | identifier
  /-- Digits with an optional sign and an optional decimal part. -/
  | numeric
  /-- A word that is exactly a keyword. -/
  | keyword
deriving DecidableEq, Repr

/-- The name under which a class is shown. -/
def TokenKind.name : TokenKind → String
  | .symbol => "Symbol"
  | .literal => "Literal"
  | .identifier => "Identifier"
  | .numeric => "Numeric"
  | .keyword => "Keyword"

/-- A classified piece of a text. -/
structure Token where
  kind : TokenKind
  text : String
  /-- The number of bytes before the token in the text's UTF-8 form. -/
  start : Nat
deriving DecidableEq, Repr

/-- The number of bytes up to the end of a token. -/
def Token.stop (t : Token) : Nat :=
  t.start + t.text.utf8ByteSize

namespace Token

/-- The decimal part of a number: how many characters it takes, if it begins here. -/
def decimals (cs : List Char) : Nat :=
  match cs with
  | '.' :: r =>
    let digits := (r.takeWhile isDigit).length
    if digits = 0 then 0 else digits + 1
  | _ => 0

/-- Digits and a decimal part: how many characters they take. -/
def digits (cs : List Char) : Nat :=
  (cs.takeWhile isDigit).length + decimals (cs.dropWhile isDigit)

/-- How many characters of a number follow its first character `c`, or `none` when no
number begins here. A sign needs a digit after it. -/
def number? (signAllowed : Bool) (c : Char) (cs : List Char) : Option Nat :=
  if isDigit c || (signAllowed && (c = '+' || c = '-') && (cs.head?.any isDigit)) then
    some (digits cs)
  else none

/-- How many characters of a literal follow its opening quote. It ends with the first
double quote that is not escaped, or before a line feed that is not, or with the text. -/
def literal : List Char → Nat
  | [] => 0
  | '"' :: _ => 1
  | '\n' :: _ => 0
  -- The text ends with a backslash, which hides nothing.
  | ['\\'] => 1
  | '\\' :: _ :: r => literal r + 2
  | _ :: r => literal r + 1

/-- The class of the token that begins with `c`, and how many characters of it follow. -/
def extent (keywords : List String) (signAllowed : Bool) (c : Char) (cs : List Char) :
    TokenKind × Nat :=
  if isAlphabetic c then
    let following := cs.takeWhile isAlphanumeric
    let known := keywords.contains (String.ofList (c :: following))
    (if known then .keyword else .identifier, following.length)
  else
    match number? signAllowed c cs with
    | some n => (.numeric, n)
    | none => if c = '"' then (.literal, literal cs) else (.symbol, 0)

/-- Whether a sign may begin a number right after a token. -/
def allowsSign (kind : TokenKind) (text : String) : Bool :=
  kind == .symbol && text != "+"

/-- The tokens of a text that begins `start` bytes into the whole one. -/
def scan (keywords : List String) (start : Nat) (signAllowed : Bool) (cs : List Char) :
    List Token :=
  match cs with
  | [] => []
  | c :: rest =>
    if isBlank c then scan keywords (start + c.utf8Size) true rest
    else
      let (kind, n) := extent keywords signAllowed c rest
      let text := String.ofList (c :: rest.take n)
      ⟨kind, text, start⟩ ::
        scan keywords (start + text.utf8ByteSize) (allowsSign kind text) (rest.drop n)
termination_by cs.length
decreasing_by
  all_goals simp only [List.length_cons, List.length_drop]
  all_goals omega

/-- The tokens of a text. -/
def tokenize (keywords : List String) (text : String) : List Token :=
  scan keywords 0 true text.toList

/-- The keywords of the built-in commands. -/
def builtinKeywords : List String :=
  Catalog.builtin.names

/-- A literal stays inside the text. -/
theorem literal_le_length (cs : List Char) : literal cs ≤ cs.length := by
  fun_induction literal cs <;> simp only [List.length_cons, List.length_nil] <;> omega

/-- Digits and a decimal part stay inside the text. -/
theorem digits_le_length (cs : List Char) : digits cs ≤ cs.length := by
  have hsplit := congrArg List.length
    (List.takeWhile_append_dropWhile (p := isDigit) (l := cs))
  rw [List.length_append] at hsplit
  have hdecimals : decimals (cs.dropWhile isDigit) ≤ (cs.dropWhile isDigit).length := by
    unfold decimals
    split
    · rename_i r hr
      have := (List.takeWhile_sublist (l := r) isDigit).length_le
      rw [hr, List.length_cons]
      dsimp only
      split <;> omega
    · omega
  unfold digits
  omega

/-- A token stays inside the text. -/
theorem extent_le_length (keywords : List String) (signAllowed : Bool) (c : Char)
    (cs : List Char) : (extent keywords signAllowed c cs).2 ≤ cs.length := by
  unfold extent
  split
  · exact (List.takeWhile_sublist _).length_le
  · split
    · rename_i n hn
      unfold number? at hn
      split at hn
      · cases hn
        exact digits_le_length cs
      · cases hn
    · split
      · exact literal_le_length cs
      · exact Nat.zero_le _

example : (tokenize builtinKeywords "Wait -2 a+3").map Token.text =
    ["Wait", "-2", "a", "+", "3"] := by decide +kernel

end Token

end InputScript
