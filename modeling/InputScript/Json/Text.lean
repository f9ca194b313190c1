import InputScript.Json.Fault

/-!
# `InputScript.Json.Text`: JSON texts

Between double quotes every character from the space on stands for itself, but for the
double quote and the backslash, which are written after a backslash. The characters below
the space have escapes: a letter for five of them and four hexadecimal digits for the
others.

Reading also accepts an escaped solidus, and four hexadecimal digits for any UTF-16 unit.
A high surrogate has to be followed by the escape of a low one; where a text is only
skipped, a unit of any value will do.

`encode` gives what is written between the quotes, and `read` reads what follows an
opening quote. `length_lt_of_read` and `length_lt_of_skip` are why reading ends, and
`read_encode` says that every text is read back as it was written.
-/

set_option autoImplicit false

namespace InputScript.Json.Text

/-! ### Writing -/

/-- The two lowercase hexadecimal digits of a number below 256. -/
def hexPair (n : Nat) : List Char :=
  [Nat.digitChar (n / 16), Nat.digitChar (n % 16)]

/-- How a character is written between quotes. -/
def encodeChar (c : Char) : List Char :=
  match c with
  | '"' => ['\\', '"']
  | '\\' => ['\\', '\\']
  | '\x08' => ['\\', 'b']
  | '\x0c' => ['\\', 'f']
  | '\n' => ['\\', 'n']
  | '\r' => ['\\', 'r']
  | '\t' => ['\\', 't']
  | c => if c.toNat < 0x20 then '\\' :: 'u' :: '0' :: '0' :: hexPair c.toNat else [c]

/-- What is written between the quotes. -/
def encode (cs : List Char) : List Char :=
  cs.flatMap encodeChar

/-- The text between double quotes. -/
def render (s : String) : String :=
  String.ofList ('"' :: encode s.toList ++ ['"'])

/-! ### Reading -/

/-- What a letter after a backslash stands for. -/
def letter? (c : Char) : Option Char :=
  match c with
  | '"' => some '"'
  | '\\' => some '\\'
  | '/' => some '/'
  | 'b' => some '\x08'
  | 'f' => some '\x0c'
  | 'n' => some '\n'
  | 'r' => some '\r'
  | 't' => some '\t'
  | _ => none

/-- The value of a hexadecimal digit. -/
def hexDigit? (c : Char) : Option Nat :=
  if '0' ≤ c ∧ c ≤ '9' then some (c.toNat - '0'.toNat)
  else if 'a' ≤ c ∧ c ≤ 'f' then some (c.toNat - 'a'.toNat + 10)
  else if 'A' ≤ c ∧ c ≤ 'F' then some (c.toNat - 'A'.toNat + 10)
  else none

/-- The number of four hexadecimal digits. -/
def hexValue? (a b c d : Char) : Option Nat :=
  match hexDigit? a, hexDigit? b, hexDigit? c, hexDigit? d with
  | some a, some b, some c, some d => some (((16 * a + b) * 16 + c) * 16 + d)
  | _, _, _, _ => none

/-- Reads the UTF-16 unit that four hexadecimal digits give. Fewer than four bytes are
too few, whatever they are. -/
def unit (cs : List Char) : Except Fault (Nat × List Char) :=
  if (String.ofList (cs.take 4)).utf8ByteSize < 4 then .error .unfinished
  else
    match cs with
    | a :: b :: c :: d :: rest =>
      match hexValue? a b c d with
      | some n => .ok (n, rest)
      | none => .error .malformed
    | _ => .error .malformed

/-- Whether a UTF-16 unit is the first of a pair. -/
def isHigh (n : Nat) : Bool :=
  decide (0xD800 ≤ n) && decide (n ≤ 0xDBFF)

/-- Whether a UTF-16 unit is the second of a pair. -/
def isLow (n : Nat) : Bool :=
  decide (0xDC00 ≤ n) && decide (n ≤ 0xDFFF)

/-- The character of a pair of UTF-16 units. -/
def pair (high low : Nat) : Char :=
  Char.ofNat (0x10000 + (high - 0xD800) * 0x400 + (low - 0xDC00))

/-- Reads the second unit of a pair, with the escape that introduces it. -/
def lowUnit (high : Nat) (cs : List Char) : Except Fault (Char × List Char) :=
  match word ['\\', 'u'] cs with
  | .error fault => .error fault
  | .ok digits =>
    match unit digits with
    | .error fault => .error fault
    | .ok (low, rest) => if isLow low then .ok (pair high low, rest) else .error .malformed

/-- Reads what follows a backslash. -/
def escape : List Char → Except Fault (Char × List Char)
  | [] => .error .unfinished
  | 'u' :: digits =>
    match unit digits with
    | .error fault => .error fault
    | .ok (n, rest) =>
      if isLow n then .error .malformed
      else if isHigh n then lowUnit n rest
      else .ok (Char.ofNat n, rest)
  | c :: rest =>
    match letter? c with
    | some meant => .ok (meant, rest)
    | none => .error .malformed

/-- Passes over what follows a backslash. -/
def skipEscape : List Char → Except Fault (List Char)
  | [] => .error .unfinished
  | 'u' :: digits => (unit digits).map Prod.snd
  | c :: rest => if (letter? c).isSome then .ok rest else .error .malformed

/-- What follows a UTF-16 unit is shorter. -/
theorem length_lt_of_unit {cs rest : List Char} {n : Nat} (h : unit cs = .ok (n, rest)) :
    rest.length < cs.length := by
  unfold unit at h
  split at h
  · cases h
  · split at h
    · split at h <;> cases h
      simp only [List.length_cons]
      omega
    · cases h

/-- What follows the second unit of a pair is shorter. -/
theorem length_lt_of_lowUnit {high : Nat} {cs rest : List Char} {c : Char}
    (h : lowUnit high cs = .ok (c, rest)) : rest.length < cs.length := by
  unfold lowUnit at h
  split at h
  · cases h
  · rename_i digits hword
    split at h
    · cases h
    · rename_i low after hunit
      split at h
      · simp only [Except.ok.injEq, Prod.mk.injEq] at h
        obtain ⟨_, rfl⟩ := h
        exact Nat.lt_of_lt_of_le (length_lt_of_unit hunit) (length_word_le hword)
      · cases h

/-- What follows an escape is shorter. -/
theorem length_lt_of_escape {cs rest : List Char} {c : Char}
    (h : escape cs = .ok (c, rest)) : rest.length < cs.length := by
  unfold escape at h
  split at h
  · cases h
  · rename_i digits
    split at h
    · cases h
    · rename_i n after hunit
      have hlt := length_lt_of_unit hunit
      simp only [List.length_cons]
      split at h
      · cases h
      · split at h
        · have := length_lt_of_lowUnit h
          omega
        · cases h
          omega
  · split at h <;> cases h
    simp

/-- What follows a skipped escape is shorter. -/
theorem length_lt_of_skipEscape {cs rest : List Char} (h : skipEscape cs = .ok rest) :
    rest.length < cs.length := by
  unfold skipEscape at h
  split at h
  · cases h
  · rename_i digits
    match hunit : unit digits with
    | .error fault =>
      rw [hunit] at h
      cases h
    | .ok (n, after) =>
      rw [hunit] at h
      cases h
      have := length_lt_of_unit hunit
      simp only [List.length_cons]
      omega
  · split at h <;> cases h
    simp

/-- Puts a character in front of the text that is read. -/
def prepend (c : Char) :
    Except Fault (List Char × List Char) → Except Fault (List Char × List Char)
  | .error fault => .error fault
  | .ok (text, rest) => .ok (c :: text, rest)

/-- Reads a text up to its closing quote: the text, and what follows the quote. -/
def read (cs : List Char) : Except Fault (List Char × List Char) :=
  match cs with
  | [] => .error .unfinished
  | '"' :: rest => .ok ([], rest)
  | '\\' :: escaped =>
    match _h : escape escaped with
    | .error fault => .error fault
    | .ok (c, rest) => prepend c (read rest)
  | c :: rest => if c.toNat < 0x20 then .error .malformed else prepend c (read rest)
termination_by cs.length
decreasing_by
  · have := length_lt_of_escape _h
    simp only [List.length_cons]
    omega
  · simp

/-- Passes over a text up to its closing quote. -/
def skip (cs : List Char) : Except Fault (List Char) :=
  match cs with
  | [] => .error .unfinished
  | '"' :: rest => .ok rest
  | '\\' :: escaped =>
    match _h : skipEscape escaped with
    | .error fault => .error fault
    | .ok rest => skip rest
  | c :: rest => if c.toNat < 0x20 then .error .malformed else skip rest
termination_by cs.length
decreasing_by
  · have := length_lt_of_skipEscape _h
    simp only [List.length_cons]
    omega
  · simp

/-- What is left over is the same with a character in front. -/
theorem rest_of_prepend {c : Char} {r : Except Fault (List Char × List Char)}
    {text rest : List Char} (h : prepend c r = .ok (text, rest)) :
    ∃ tail, r = .ok (tail, rest) := by
  unfold prepend at h
  split at h
  · cases h
  · cases h
    exact ⟨_, rfl⟩

/-- What follows a closing quote is shorter than what followed the opening one. -/
theorem length_lt_of_read {cs text rest : List Char} (h : read cs = .ok (text, rest)) :
    rest.length < cs.length := by
  fun_induction read cs generalizing text rest with
  | case1 => cases h
  | case2 rest =>
    cases h
    simp
  | case3 => cases h
  | case4 escaped c after hescape ih =>
    obtain ⟨tail, htail⟩ := rest_of_prepend h
    have := ih htail
    have := length_lt_of_escape hescape
    simp only [List.length_cons]
    omega
  | case5 => cases h
  | case6 c after _ _ _ ih =>
    obtain ⟨tail, htail⟩ := rest_of_prepend h
    have := ih htail
    simp only [List.length_cons]
    omega

/-- What follows a skipped text is shorter. -/
theorem length_lt_of_skip {cs rest : List Char} (h : skip cs = .ok rest) :
    rest.length < cs.length := by
  fun_induction skip cs with
  | case1 => cases h
  | case2 =>
    cases h
    simp
  | case3 => cases h
  | case4 escaped after hescape ih =>
    have := ih h
    have := length_lt_of_skipEscape hescape
    simp only [List.length_cons]
    omega
  | case5 => cases h
  | case6 c after _ _ _ ih =>
    have := ih h
    simp only [List.length_cons]
    omega

/-! ### Reading what was written -/

/-- A hexadecimal digit is read back. -/
theorem hexDigit?_digitChar {d : Nat} (h : d < 16) : hexDigit? (Nat.digitChar d) = some d := by
  have hall : ∀ d : Fin 16, hexDigit? (Nat.digitChar d) = some d.val := by decide
  exact hall ⟨d, h⟩

/-- A hexadecimal digit takes one byte. -/
theorem utf8Size_digitChar {d : Nat} (h : d < 16) : (Nat.digitChar d).utf8Size = 1 := by
  have hall : ∀ d : Fin 16, (Nat.digitChar d).utf8Size = 1 := by decide
  exact hall ⟨d, h⟩

/-- The digits of a number below 256 are read back. -/
theorem unit_hexPair {n : Nat} (h : n < 0x100) (rest : List Char) :
    unit ('0' :: '0' :: (hexPair n ++ rest)) = .ok (n, rest) := by
  have hhigh : n / 16 < 16 := by omega
  have hlow : n % 16 < 16 := by omega
  have hzero : hexDigit? '0' = some 0 := by decide
  have hsize : ("0" : String).utf8ByteSize = 1 := by decide
  have hbytes :
      ¬(String.ofList (('0' :: '0' :: (hexPair n ++ rest)).take 4)).utf8ByteSize < 4 := by
    simp [hexPair, String.ofList_cons, hsize, utf8Size_digitChar hhigh,
      utf8Size_digitChar hlow]
  unfold unit
  rw [if_neg hbytes]
  show (match hexValue? '0' '0' (Nat.digitChar (n / 16)) (Nat.digitChar (n % 16)) with
    | some n => Except.ok (n, rest)
    | none => Except.error Fault.malformed) = _
  have hvalue :
      hexValue? '0' '0' (Nat.digitChar (n / 16)) (Nat.digitChar (n % 16)) = some n := by
    simp only [hexValue?, hzero, hexDigit?_digitChar hhigh, hexDigit?_digitChar hlow]
    congr 1
    omega
  rw [hvalue]

/-- An escape is read as the character that it stands for. -/
theorem read_escape {escaped rest : List Char} {c : Char}
    (h : escape escaped = .ok (c, rest)) : read ('\\' :: escaped) = prepend c (read rest) := by
  rw [read]
  split
  · rename_i hescape
    rw [h] at hescape
    cases hescape
  · rename_i hescape
    rw [h] at hescape
    simp only [Except.ok.injEq, Prod.mk.injEq] at hescape
    obtain ⟨rfl, rfl⟩ := hescape
    rfl

/-- The escape of a control character is read back. -/
theorem escape_hexPair {c : Char} (h : c.toNat < 0x20) (rest : List Char) :
    escape ('u' :: '0' :: '0' :: (hexPair c.toNat ++ rest)) = .ok (c, rest) := by
  have hlow : isLow c.toNat = false := by
    simp only [isLow, Bool.and_eq_false_iff, decide_eq_false_iff_not]
    omega
  have hhigh : isHigh c.toNat = false := by
    simp only [isHigh, Bool.and_eq_false_iff, decide_eq_false_iff_not]
    omega
  simp only [escape, unit_hexPair (n := c.toNat) (by omega) rest, hlow, hhigh]
  simp

/-- A character is read back, whatever follows it. -/
theorem read_encodeChar (c : Char) (rest : List Char) :
    read (encodeChar c ++ rest) = prepend c (read rest) := by
  unfold encodeChar
  split
  case h_8 hquote hback _ _ _ _ _ =>
    split
    · rename_i hcontrol
      exact read_escape (escape_hexPair hcontrol rest)
    · rename_i hplain
      show read (c :: rest) = _
      rw [read]
      · rw [if_neg hplain]
      · exact hquote
      · exact hback
  all_goals exact read_escape rfl

/-- What is written between quotes is read back. -/
theorem read_encode (cs rest : List Char) :
    read (encode cs ++ '"' :: rest) = .ok (cs, rest) := by
  induction cs with
  | nil =>
    show read ('"' :: rest) = _
    rw [read]
  | cons c cs ih =>
    rw [encode, List.flatMap_cons, List.append_assoc, read_encodeChar]
    show prepend c (read (encode cs ++ '"' :: rest)) = _
    rw [ih]
    rfl

end InputScript.Json.Text
