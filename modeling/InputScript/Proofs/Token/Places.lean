import InputScript.Proofs.Text.Bytes
import InputScript.Proofs.Token.Scanning

/-!
# `InputScript.Proofs.Token.Places`: tokens cut out of a text at byte places

`scan` takes a text apart character by character, and a token is what it takes. The same can be done
with a place in the text that moves on: what is left of the text is sliced off there, blanks are
trimmed from it by the difference in bytes, and one of four functions says how many bytes the token
at the front takes. Here more can go wrong. A slice may begin or end inside a character, and a token
without a byte would be cut out for ever.

Neither happens: each length takes its token to a place between two characters, and there is one
byte in it at least. The lengths of words and of literals are places of characters; that of a number
is counted in bytes, of which those of ASCII are characters and the others belong to none
(`utf8EncodeChar_cases`).

* `next`, `collect`: the program on places.
* `wordLength_eq`, `numericLength?_eq`, `literalLength_eq`: three lengths, in characters.
* `lengthOf_eq`, `lengthOf_boundary`: all of them, and where they lead.
* `collect_of_scans`: the program finds the tokens, and comes to an end behind the last one.
-/

set_option autoImplicit false

namespace InputScript.Token

open Number Text

namespace Cutting

/-! ### The program on places -/

/-- A slice that begins or ends inside a character, or ends before it begins. -/
structure BadSlice where
  start : Nat
  stop : Nat
deriving DecidableEq, Repr

/-- What stands between two places of a text. -/
def slice (text : String) (start stop : Nat) : Except BadSlice String :=
  (cut? text start stop).elim (.error ⟨start, stop⟩) .ok

/-- How many bytes a word at the front of a text takes. -/
def wordLength (text : String) : Nat :=
  (((places 0 text.toList).find? fun place => !isAlphanumeric place.2).map Prod.fst).getD
    text.utf8ByteSize

/-- Whether a byte is a digit of ASCII. -/
def isDigitByte (b : UInt8) : Bool :=
  48 ≤ b && b ≤ 57

/-- The place behind the digits that stand at a place. -/
def skipDigits (bytes : List UInt8) (i : Nat) : Nat :=
  if h : bytes[i]?.any isDigitByte = true then skipDigits bytes (i + 1) else i
termination_by bytes.length - i
decreasing_by
  obtain ⟨b, hb, -⟩ := (Option.any_eq_true ..).mp h
  obtain ⟨hi, -⟩ := List.getElem?_eq_some_iff.mp hb
  omega

/-- The place behind the decimal part that stands at a place, if one does: a point (46) with a digit
behind it, and the digits from there. -/
def skipDecimals (bytes : List UInt8) (i : Nat) : Nat :=
  if bytes[i]? = some 46 ∧ bytes[i + 1]?.any isDigitByte then skipDigits bytes (i + 1) else i

/-- The place behind a plus (43) or a minus (45) at the front, if one is there and may be. -/
def skipSign (bytes : List UInt8) (signAllowed : Bool) : Nat :=
  if signAllowed ∧ (bytes[0]? = some 43 ∨ bytes[0]? = some 45) then 1 else 0

/-- How many bytes a number at the front of a text takes, if there is one. -/
def numericLength? (bytes : List UInt8) (signAllowed : Bool) : Option Nat :=
  let start := skipSign bytes signAllowed
  let stop := skipDigits bytes start
  if stop = start then none else some (skipDecimals bytes stop)

/-- Where a literal ends in a text of `size` bytes, of which some characters are left. -/
def literalStop (size : Nat) (escaped : Bool) : List (Nat × Char) → Nat
  | [] => size
  | (i, c) :: rest =>
    -- A line feed behind a backslash is passed over like any other character.
    if escaped then literalStop size false rest
    else if c = '\\' then literalStop size true rest
    else if c = '"' then i + 1
    else if c = '\n' then i
    else literalStop size false rest

/-- How many bytes a literal at the front of a text takes. -/
def literalLength (text : String) : Nat :=
  literalStop text.utf8ByteSize false ((places 0 text.toList).drop 1)

/-- The class of the token at the front of a text, which begins with `first`, and how many bytes it
takes. -/
def lengthOf (keywords : List String) (signAllowed : Bool) (text : String) (first : Char) :
    Except BadSlice (TokenKind × Nat) :=
  if isAlphabetic first then
    (slice text 0 (wordLength text)).map fun word =>
      (if keywords.contains word then .keyword else .identifier, wordLength text)
  else
    match numericLength? (bytesOf text) signAllowed with
    | some length => .ok (.numeric, length)
    | none =>
      .ok (if first = '"' then (.literal, literalLength text) else (.symbol, first.utf8Size))

/-- Where the program stands in the text, and whether a sign may begin a number there. -/
structure Cursor where
  place : Nat
  signAllowed : Bool

/-- Moves on to the next character that is no blank: the cursor there, and what is left of the
text. -/
def skipBlanks (src : String) (c : Cursor) : Except BadSlice (Cursor × String) :=
  (slice src c.place src.utf8ByteSize).map fun rest =>
    let trimmed := String.ofList (trimStart rest.toList)
    (if trimmed.utf8ByteSize < rest.utf8ByteSize then
      ⟨c.place + (rest.utf8ByteSize - trimmed.utf8ByteSize), true⟩ else c, trimmed)

/-- Cuts a token out at a cursor, and moves on behind it. -/
def emit (src : String) (c : Cursor) (kind : TokenKind) (length : Nat) :
    Except BadSlice (Token × Cursor) :=
  (slice src c.place (c.place + length)).map fun text =>
    (⟨kind, text, c.place⟩, ⟨c.place + length, allowsSign kind text⟩)

/-- The next token, if there is one, and the cursor behind it. -/
def next (keywords : List String) (src : String) (c : Cursor) :
    Except BadSlice (Option (Token × Cursor)) := do
  let skipped ← skipBlanks src c
  match skipped.2.toList.head? with
  | none => return none
  | some first =>
    let found ← lengthOf keywords skipped.1.signAllowed skipped.2 first
    let token ← emit src skipped.1 found.1 found.2
    return some token

/-- The tokens from a cursor on, if they are found in a number of calls. -/
def collect (keywords : List String) (src : String) :
    Nat → Cursor → Except BadSlice (Option (List Token))
  | 0, _ => .ok none
  | calls + 1, c => do
    match ← next keywords src c with
    | none => return some []
    | some found => return (← collect keywords src calls found.2).map (found.1 :: ·)

/-! ### The lengths of tokens -/

variable {before w after cs : List Char} {c : Char}

theorem slice_eq {text : String} (h : text.toList = before ++ w ++ after) :
    slice text (String.utf8Len before) (String.utf8Len (before ++ w)) = .ok (String.ofList w) := by
  rw [slice, cut?_eq h]
  rfl

/-- A word takes its letters and digits. -/
theorem wordLength_eq (hc : isAlphanumeric c = true) (cs : List Char) :
    wordLength (String.ofList (c :: cs)) =
      String.utf8Len (c :: cs.takeWhile isAlphanumeric) := by
  have hfind := find?_places isAlphanumeric 0 (c :: cs)
  rw [Nat.zero_add, Nat.zero_add, List.takeWhile_cons, if_pos hc] at hfind
  rw [wordLength, String.toList_ofList, String.utf8ByteSize_ofList, hfind]

/-- The first byte of a character of ASCII is the character. -/
theorem head_byte (c : Char) : ∃ b rest, String.utf8EncodeChar c = b :: rest ∧
    (c.toNat < 128 → b.toNat = c.toNat ∧ rest = []) ∧ (128 ≤ c.toNat → 128 ≤ b.toNat) := by
  rcases utf8EncodeChar_cases c with ⟨hascii, hbytes⟩ | ⟨hwide, b, rest, hbytes, hb⟩
  · refine ⟨_, _, hbytes, fun _ => ⟨?_, rfl⟩, by omega⟩
    rw [UInt8.toNat_ofNat']
    omega
  · exact ⟨b, rest, hbytes, by omega, fun _ => hb⟩

theorem isDigit_iff {c : Char} : isDigit c = true ↔ 48 ≤ c.toNat ∧ c.toNat ≤ 57 := by
  simp [isDigit, Char.le_def, UInt32.le_iff_toNat_le]

theorem isDigitByte_iff {b : UInt8} : isDigitByte b = true ↔ 48 ≤ b.toNat ∧ b.toNat ≤ 57 := by
  simp [isDigitByte, UInt8.le_iff_toNat_le]

theorem lt_of_isDigit (h : isDigit c = true) : c.toNat < 128 := by
  have := (toNat_of_isDigit h).2
  omega

/-- The first byte is a digit just if the first character is. -/
theorem any_isDigitByte (cs : List Char) :
    (cs.flatMap String.utf8EncodeChar)[0]?.any isDigitByte = cs.head?.any isDigit := by
  cases cs with
  | nil => rfl
  | cons c cs =>
    obtain ⟨b, rest, hbytes, hascii, hwide⟩ := head_byte c
    rw [List.flatMap_cons, hbytes, List.cons_append, List.getElem?_cons_zero, List.head?_cons,
      Option.any_some, Option.any_some, Bool.eq_iff_iff, isDigitByte_iff, isDigit_iff]
    rcases Nat.lt_or_ge c.toNat 128 with h | h
    · rw [(hascii h).1]
    · have := hwide h
      omega

/-- The first byte is a given character of ASCII just if the first character is. -/
theorem getElem?_zero_eq_iff {d : Char} (hd : d.toNat < 128) (cs : List Char) :
    (cs.flatMap String.utf8EncodeChar)[0]? = some (UInt8.ofNat d.toNat) ↔ cs.head? = some d := by
  cases cs with
  | nil => simp
  | cons c cs =>
    obtain ⟨b, rest, hbytes, hascii, hwide⟩ := head_byte c
    have hbyte : (UInt8.ofNat d.toNat).toNat = d.toNat := by
      rw [UInt8.toNat_ofNat']
      omega
    rw [List.flatMap_cons, hbytes, List.cons_append, List.getElem?_cons_zero, List.head?_cons,
      Option.some_inj, Option.some_inj, ← UInt8.toNat_inj, hbyte, ← Char.toNat_inj]
    rcases Nat.lt_or_ge c.toNat 128 with h | h
    · rw [(hascii h).1]
    · have := hwide h
      omega

/-- Behind some bytes stand those of the text that follows. -/
theorem getElem?_length_append (front bytes : List UInt8) (i : Nat) :
    (front ++ bytes)[front.length + i]? = bytes[i]? := by
  rw [List.getElem?_append_right (Nat.le_add_right _ _), Nat.add_sub_cancel_left]

/-- Digits are skipped one by one. -/
theorem skipDigits_eq (front : List UInt8) (cs : List Char) :
    skipDigits (front ++ cs.flatMap String.utf8EncodeChar) front.length =
      front.length + (cs.takeWhile isDigit).length := by
  have hfirst : (front ++ cs.flatMap String.utf8EncodeChar)[front.length]?.any isDigitByte =
      cs.head?.any isDigit :=
    (congrArg _ (getElem?_length_append front _ 0)).trans (any_isDigitByte cs)
  induction cs generalizing front with
  | nil =>
    rw [skipDigits, dif_neg (by simp)]
    rfl
  | cons c cs ih =>
    rw [List.head?_cons, Option.any_some] at hfirst
    rw [skipDigits, hfirst, List.takeWhile_cons]
    cases hdigit : isDigit c with
    | false => rfl
    | true =>
      obtain ⟨b, rest, hbytes, hascii, -⟩ := head_byte c
      obtain ⟨-, rfl⟩ := hascii (lt_of_isDigit hdigit)
      have hsplit : front ++ (c :: cs).flatMap String.utf8EncodeChar =
          (front ++ [b]) ++ cs.flatMap String.utf8EncodeChar := by
        rw [List.flatMap_cons, hbytes, List.append_assoc]
      have hlength : front.length + 1 = (front ++ [b]).length := by
        rw [List.length_append, List.length_singleton]
      rw [dif_pos rfl, hsplit, hlength, ih (front ++ [b])
        ((congrArg _ (getElem?_length_append (front ++ [b]) _ 0)).trans (any_isDigitByte cs)),
        ← hlength, if_pos rfl, List.length_cons]
      omega

/-- A decimal part is skipped if there is a digit behind its point. -/
theorem skipDecimals_eq (front : List UInt8) (cs : List Char) :
    skipDecimals (front ++ cs.flatMap String.utf8EncodeChar) front.length =
      front.length + decimals cs := by
  have hpoint : (front ++ cs.flatMap String.utf8EncodeChar)[front.length]? = some 46 ↔
      cs.head? = some '.' := by
    rw [← getElem?_zero_eq_iff (d := '.') (by decide) cs]
    exact iff_of_eq (congrArg (· = some 46) (getElem?_length_append front _ 0))
  rw [skipDecimals]
  simp only [hpoint]
  cases cs with
  | nil => simp [decimals]
  | cons c cs =>
    by_cases hc : c = '.'
    · subst hc
      have hbytes : String.utf8EncodeChar '.' = [46] := by decide
      have hsplit : front ++ ('.' :: cs).flatMap String.utf8EncodeChar =
          (front ++ [46]) ++ cs.flatMap String.utf8EncodeChar := by
        rw [List.flatMap_cons, hbytes, List.append_assoc]
      have hlength : front.length + 1 = (front ++ [46]).length := by
        rw [List.length_append, List.length_singleton]
      have hdigit : (((front ++ [46]) ++
          cs.flatMap String.utf8EncodeChar)[(front ++ [46]).length]?.any isDigitByte) =
            cs.head?.any isDigit :=
        (congrArg _ (getElem?_length_append (front ++ [46]) _ 0)).trans (any_isDigitByte cs)
      rw [hsplit, hlength, hdigit, skipDigits_eq, ← hlength, decimals]
      cases cs with
      | nil => simp
      | cons d cs =>
        cases hd : isDigit d with
        | false => simp [hd]
        | true =>
          simp [hd]
          omega
    · have hnone : decimals (c :: cs) = 0 := by
        unfold decimals
        split
        · rename_i heq
          exact absurd (List.cons.inj heq).1 hc
        · rfl
      simp [hc, hnone]

/-- A sign is skipped where it may stand. -/
theorem skipSign_eq (signAllowed : Bool) (c : Char) (cs : List Char) :
    skipSign ((c :: cs).flatMap String.utf8EncodeChar) signAllowed =
      if signAllowed ∧ (c = '+' ∨ c = '-') then 1 else 0 := by
  have hplus := getElem?_zero_eq_iff (d := '+') (by decide) (c :: cs)
  have hminus := getElem?_zero_eq_iff (d := '-') (by decide) (c :: cs)
  rw [List.head?_cons, Option.some_inj] at hplus hminus
  rw [skipSign]
  exact if_congr (and_congr_right fun _ => or_congr hplus hminus) rfl rfl

/-- Digits and a decimal part are skipped behind some bytes, if there is a digit. -/
theorem skip_eq (front : List UInt8) (cs : List Char) :
    let bytes := front ++ cs.flatMap String.utf8EncodeChar
    let stop := skipDigits bytes front.length
    (if stop = front.length then none else some (skipDecimals bytes stop)) =
      if cs.head?.any isDigit then some (front.length + digits cs) else none := by
  obtain ⟨ds, r, rfl, hds, hr⟩ := exists_run_append isDigit cs
  have hlength : front.length + ds.length =
      (front ++ ds.flatMap String.utf8EncodeChar).length := by
    rw [List.length_append, length_flatMap_utf8EncodeChar,
      utf8Len_of_lt fun c hc => lt_of_isDigit (hds c hc)]
  have hfirst : (ds ++ r).head?.any isDigit = true ↔ ds.length ≠ 0 := by
    cases ds with
    | nil => cases r <;> simp_all
    | cons d ds => simp [hds d List.mem_cons_self]
  have hdecimals := skipDecimals_eq (front ++ ds.flatMap String.utf8EncodeChar) r
  rw [← hlength, List.append_assoc, ← List.flatMap_append] at hdecimals
  dsimp only
  rw [skipDigits_eq, takeWhile_exact hds hr, hdecimals, digits, takeWhile_exact hds hr,
    dropWhile_exact hds hr, ← Nat.add_assoc]
  by_cases hds : ds.length = 0
  · rw [if_pos (by omega), if_neg fun h => hfirst.mp h hds]
  · rw [if_neg (by omega), if_pos (hfirst.mpr hds)]

/-- The characters of a number are bytes. -/
theorem utf8Len_number? {signAllowed : Bool} {n : Nat} (h : number? signAllowed c cs = some n) :
    String.utf8Len (c :: cs.take n) = n + 1 := by
  rcases number?_cases signAllowed c cs with ⟨m, hm, hlongest⟩ | ⟨hnone, -⟩
  · obtain rfl : m = n := Option.some_inj.mp (hm.symm.trans h)
    have hle : m ≤ cs.length := by
      rw [number?] at h
      split at h
      · cases h
        exact digits_le_length cs
      · cases h
    rw [utf8Len_of_lt hlongest.mem.lt_of_mem, List.length_cons, List.length_take,
      Nat.min_eq_left hle]
  · rw [hnone] at h
    cases h

/-- The length of a number is that of its characters. -/
theorem numericLength?_eq (signAllowed : Bool) (c : Char) (cs : List Char) :
    numericLength? ((c :: cs).flatMap String.utf8EncodeChar) signAllowed =
      (number? signAllowed c cs).map fun n => String.utf8Len (c :: cs.take n) := by
  have hcount : numericLength? ((c :: cs).flatMap String.utf8EncodeChar) signAllowed =
      (number? signAllowed c cs).map (· + 1) := by
    rw [numericLength?, skipSign_eq, number?]
    by_cases hsign : signAllowed = true ∧ (c = '+' ∨ c = '-')
    · obtain ⟨b, rest, hbytes, hascii, -⟩ := head_byte c
      obtain ⟨-, rfl⟩ := hascii (by rcases hsign.2 with rfl | rfl <;> decide)
      have hskip := skip_eq [b] cs
      rw [← hbytes, ← List.flatMap_cons, hbytes] at hskip
      rw [if_pos hsign]
      refine hskip.trans ?_
      cases cs.head?.any isDigit <;> simp [hsign, isDigit_of_sign hsign.2, Nat.add_comm]
    · have hskip := skip_eq [] (c :: cs)
      rw [if_neg hsign]
      refine hskip.trans ?_
      cases hdigit : isDigit c with
      | true => simp [hdigit, digits_cons hdigit]
      | false => simp_all
  rw [hcount]
  cases hnumber : number? signAllowed c cs with
  | none => rfl
  | some n => rw [Option.map_some, Option.map_some, utf8Len_number? hnumber]

/-- A literal goes on for its characters. -/
theorem literalStop_eq (start : Nat) (cs : List Char) :
    literalStop (start + String.utf8Len cs) false (places start cs) =
      start + String.utf8Len (cs.take (literal cs)) := by
  fun_induction literal cs generalizing start with
  | case1 => rfl
  | case2 => rfl
  | case3 => rfl
  | case4 => rfl
  | case5 c r ih =>
    have hsize (cs : List Char) : start + String.utf8Len ('\\' :: c :: cs) =
        start + '\\'.utf8Size + c.utf8Size + String.utf8Len cs := by
      rw [String.utf8Len_cons, String.utf8Len_cons]
      omega
    rw [List.take_succ_cons, List.take_succ_cons, hsize, hsize]
    exact ih _
  | case6 c r hquote hline hlast hescape ih =>
    have hsize (cs : List Char) : start + String.utf8Len (c :: cs) =
        start + c.utf8Size + String.utf8Len cs := by
      rw [String.utf8Len_cons]
      omega
    have hbackslash : c ≠ '\\' := by
      rintro rfl
      cases r with
      | nil => exact hlast rfl rfl
      | cons d r => exact hescape d r rfl rfl
    rw [List.take_succ_cons, hsize, hsize, places, literalStop, if_neg Bool.false_ne_true,
      if_neg hbackslash, if_neg hquote, if_neg hline]
    exact ih _

/-- A literal takes its quote and what it goes on for. -/
theorem literalLength_eq (cs : List Char) :
    literalLength (String.ofList ('"' :: cs)) =
      String.utf8Len ('"' :: cs.take (literal cs)) := by
  have hstop := literalStop_eq ('"'.utf8Size) cs
  rw [Nat.add_comm, ← String.utf8Len_cons, Nat.add_comm, ← String.utf8Len_cons] at hstop
  rw [literalLength, String.toList_ofList, String.utf8ByteSize_ofList, places, List.drop_one,
    List.tail_cons, Nat.zero_add, hstop]

/-- The token at the front of a text, in bytes. -/
theorem lengthOf_eq (keywords : List String) (signAllowed : Bool) {text : String}
    (htext : text.toList = c :: cs) :
    lengthOf keywords signAllowed text c = .ok ((extent keywords signAllowed c cs).1,
      String.utf8Len (c :: cs.take (extent keywords signAllowed c cs).2)) := by
  obtain rfl : text = String.ofList (c :: cs) := by rw [← htext, String.ofList_toList]
  rw [lengthOf, extent]
  by_cases hletter : isAlphabetic c = true
  · obtain ⟨run, r, rfl, hrun, hr⟩ := exists_run_append isAlphanumeric cs
    have hsplit : (String.ofList (c :: (run ++ r))).toList = [] ++ c :: run ++ r := htext
    rw [if_pos hletter, if_pos hletter, wordLength_eq (isAlphanumeric_of_isAlphabetic hletter),
      takeWhile_exact hrun hr]
    dsimp only
    rw [List.take_left]
    exact congrArg (Except.map _) (slice_eq hsplit)
  · rw [if_neg hletter, if_neg hletter, bytesOf_eq, htext, numericLength?_eq]
    cases number? signAllowed c cs with
    | some n => rfl
    | none =>
      by_cases hquote : c = '"'
      · subst hquote
        rw [Option.map_none]
        exact congrArg (fun length => Except.ok (TokenKind.literal, length)) (literalLength_eq cs)
      · simp [hquote, String.utf8Len_cons]

/-- A token has a byte, and ends between two characters of its text. -/
theorem lengthOf_boundary (keywords : List String) (signAllowed : Bool) {text : String}
    (hfirst : text.toList.head? = some c) :
    ∃ kind length, lengthOf keywords signAllowed text c = .ok (kind, length) ∧
      0 < length ∧ String.Pos.Raw.IsValid text ⟨length⟩ := by
  obtain ⟨cs, htext⟩ : ∃ cs, text.toList = c :: cs := List.head?_eq_some_iff.mp hfirst
  refine ⟨_, _, lengthOf_eq keywords signAllowed htext, ?_, ?_⟩
  · have := c.utf8Size_pos
    rw [String.utf8Len_cons]
    omega
  · have hsplit : text.toList = (c :: cs.take (extent keywords signAllowed c cs).2) ++
        cs.drop (extent keywords signAllowed c cs).2 := by
      rw [htext, List.cons_append, List.take_append_drop]
    exact isValid_utf8Len hsplit

/-! ### Running over the text -/

variable {keywords : List String} {src : String} {start : Nat} {signAllowed : Bool}
  {tokens : List Token}

/-- What is left of a text, with the blanks in front of it skipped. -/
theorem skipBlanks_eq (hsrc : src.toList = before ++ cs) (signAllowed : Bool) :
    skipBlanks src ⟨String.utf8Len before, signAllowed⟩ =
      .ok (if String.utf8Len (trimStart cs) < String.utf8Len cs then
          ⟨String.utf8Len before + (String.utf8Len cs - String.utf8Len (trimStart cs)), true⟩
        else ⟨String.utf8Len before, signAllowed⟩, String.ofList (trimStart cs)) := by
  have hslice := slice_eq (hsrc.trans (List.append_nil (before ++ cs)).symm)
  have hsize : src.utf8ByteSize = String.utf8Len (before ++ cs) := by
    rw [← hsrc, ← String.utf8ByteSize_ofList, String.ofList_toList]
  rw [skipBlanks, hsize, hslice]
  simp only [Except.map, String.toList_ofList, String.utf8ByteSize_ofList]

/-- A blank may be skipped on its own. -/
theorem skipBlanks_cons (hsrc : src.toList = before ++ c :: cs) (hc : isBlank c = true) :
    skipBlanks src ⟨String.utf8Len before, signAllowed⟩ =
      skipBlanks src ⟨String.utf8Len before + c.utf8Size, true⟩ := by
  have hsrc' : src.toList = (before ++ [c]) ++ cs := hsrc.trans (List.append_cons ..)
  have hplace : String.utf8Len before + c.utf8Size = String.utf8Len (before ++ [c]) := by
    rw [String.utf8Len_append, String.utf8Len_cons, String.utf8Len_nil, Nat.zero_add]
  have htrim : trimStart (c :: cs) = trimStart cs := List.dropWhile_cons_of_pos hc
  have hle : String.utf8Len (trimStart cs) ≤ String.utf8Len cs := by
    have hsplit := congrArg String.utf8Len
      (List.takeWhile_append_dropWhile (p := isBlank) (l := cs))
    rw [String.utf8Len_append] at hsplit
    rw [trimStart]
    omega
  have hpos := c.utf8Size_pos
  rw [skipBlanks_eq hsrc, hplace, skipBlanks_eq hsrc', ← hplace, htrim, String.utf8Len_cons,
    if_pos (by omega)]
  split
  · congr 3
    omega
  · congr 3
    omega

/-- The next token behind a blank is the next one. -/
theorem next_blank (hsrc : src.toList = before ++ c :: cs) (hc : isBlank c = true) :
    next keywords src ⟨String.utf8Len before, signAllowed⟩ =
      next keywords src ⟨String.utf8Len before + c.utf8Size, true⟩ := by
  rw [next, next, skipBlanks_cons hsrc hc]

/-- A token that is read at a place is cut out there. -/
theorem next_of_reads {kind : TokenKind} (hsrc : src.toList = before ++ w ++ after)
    (h : Reads keywords (signAllowed = true) w after kind) :
    next keywords src ⟨String.utf8Len before, signAllowed⟩ =
      .ok (some (⟨kind, String.ofList w, String.utf8Len before⟩,
        ⟨String.utf8Len (before ++ w), allowsSign kind (String.ofList w)⟩)) := by
  obtain ⟨c, r, rfl, hc⟩ := h.exists_cons
  have htrim : trimStart (c :: r ++ after) = c :: r ++ after :=
    List.dropWhile_cons_of_neg (Bool.eq_false_iff.mp hc)
  have hlength : lengthOf keywords signAllowed (String.ofList (c :: r ++ after)) c =
      .ok (kind, String.utf8Len (c :: r)) := by
    rw [List.cons_append, lengthOf_eq keywords signAllowed String.toList_ofList,
      extent_of_reads h, List.take_left]
  have hemit : emit src ⟨String.utf8Len before, signAllowed⟩ kind (String.utf8Len (c :: r)) =
      .ok (⟨kind, String.ofList (c :: r), String.utf8Len before⟩,
        ⟨String.utf8Len (before ++ c :: r), allowsSign kind (String.ofList (c :: r))⟩) := by
    rw [emit, ← String.utf8Len_append, slice_eq hsrc]
    rfl
  rw [next, skipBlanks_eq (hsrc.trans (List.append_assoc ..)), htrim, if_neg (Nat.lt_irrefl _)]
  simp only [bind, Except.bind, pure, Except.pure, String.toList_ofList, List.cons_append,
    List.head?_cons]
  rw [← List.cons_append, hlength]
  simp only [hemit]

/-- The tokens of a text are found at their places, and then no more: the last call finds none. -/
theorem collect_of_scans (h : Scans keywords start signAllowed cs tokens)
    (hsrc : src.toList = before ++ cs) (hstart : start = String.utf8Len before) {calls : Nat}
    (hcalls : tokens.length ≤ calls) :
    collect keywords src (calls + 1) ⟨start, signAllowed⟩ = .ok (some tokens) := by
  induction h generalizing before calls with
  | nil start signAllowed =>
    rw [collect, next, hstart, skipBlanks_eq hsrc]
    rfl
  -- The call that comes upon a blank is the one that would begin behind it.
  | @blank start signAllowed c cs tokens hblank _ ih =>
    subst hstart
    have hplace : String.utf8Len before + c.utf8Size = String.utf8Len (before ++ [c]) := by
      rw [String.utf8Len_append, String.utf8Len_cons, String.utf8Len_nil, Nat.zero_add]
    rw [collect, next_blank hsrc hblank]
    exact ih (hsrc.trans (List.append_cons ..)) hplace hcalls
  | @token start signAllowed w after kind tokens hreads _ ih =>
    obtain ⟨calls, rfl⟩ := Nat.exists_eq_add_one_of_ne_zero (Nat.ne_zero_of_lt hcalls)
    subst hstart
    have hsrc' : src.toList = before ++ w ++ after := hsrc.trans (List.append_assoc ..).symm
    have hrest := ih hsrc' (by rw [String.utf8ByteSize_ofList, String.utf8Len_append])
      (Nat.le_of_succ_le_succ hcalls)
    rw [String.utf8ByteSize_ofList, ← String.utf8Len_append] at hrest
    rw [collect, next_of_reads hsrc' hreads]
    simp only [bind, Except.bind, hrest]
    rfl

end Cutting

end InputScript.Token
