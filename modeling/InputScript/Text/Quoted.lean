import InputScript.Text.Graphic

/-!
# `InputScript.Text.Quoted`: text shown between quotes

The quoted form of a text shows every character on one line. The null character, tab,
line breaks, backslash and double quote have an escape of their own; a character that
cannot be shown is written by its code point in hexadecimal.
-/

set_option autoImplicit false

namespace InputScript.Text

/-- The lowercase hexadecimal digits of a number, without leading zeros. -/
def hex (n : Nat) : String :=
  String.ofList (Nat.toDigits 16 n)

/-- How one character is shown inside quotes. -/
def shown (c : Char) : String :=
  match c with
  | '\x00' => "\\0"
  | '\t' => "\\t"
  | '\r' => "\\r"
  | '\n' => "\\n"
  | '\\' => "\\\\"
  | '"' => "\\\""
  | c => if isShowable c then c.toString else "\\u\x7b" ++ hex c.toNat ++ "\x7d"

/-- The text between double quotes. -/
def quoted (s : String) : String :=
  "\"" ++ String.join (s.toList.map shown) ++ "\""

/-- The quoted texts in brackets, with commas between them. -/
def quotedList (ss : List String) : String :=
  "[" ++ ", ".intercalate (ss.map quoted) ++ "]"

example : quoted "a\"b" = "\"a\\\"b\"" := by decide +kernel

end InputScript.Text
