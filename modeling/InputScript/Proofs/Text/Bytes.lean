import Mathlib.Data.String.Basic

/-!
# `InputScript.Proofs.Text.Bytes`: places in a text, counted in bytes

A text that falls into two has a place between its parts, and a piece between two such places is
what stands there. A character of ASCII is one byte, and the bytes of the others are no ASCII.

* `append_inj_of_utf8Len`: a place says how a text falls into two.
* `isValid_utf8Len`, `cut?_eq`: such places are not inside a character.
* `bytesOf_eq`, `utf8EncodeChar_cases`: the bytes of a text, character by character.
-/

set_option autoImplicit false

namespace InputScript

/-! ### Places -/

/-- The characters of a text, each with the byte it begins at. -/
def places (start : Nat) : List Char → List (Nat × Char)
  | [] => []
  | c :: r => (start, c) :: places (start + c.utf8Size) r

/-- What stands between two places of a text, unless one of them is inside a character or there is
no such piece. -/
def cut? (text : String) (start stop : Nat) : Option String :=
  if start ≤ stop ∧ String.Pos.Raw.IsValid text ⟨start⟩ ∧ String.Pos.Raw.IsValid text ⟨stop⟩ then
    some (String.Pos.Raw.extract text ⟨start⟩ ⟨stop⟩)
  else none

/-- Two ways to cut a text at the same byte are one. -/
theorem append_inj_of_utf8Len {l₁ l₂ r₁ r₂ : List Char} (h : l₁ ++ r₁ = l₂ ++ r₂)
    (hbytes : String.utf8Len l₁ = String.utf8Len l₂) : l₁ = l₂ ∧ r₁ = r₂ := by
  rcases List.append_eq_append_iff.mp h with ⟨more, rfl, rfl⟩ | ⟨more, rfl, rfl⟩
  all_goals
    rw [String.utf8Len_append] at hbytes
    have hmore : more = [] := String.utf8Len_eq_zero.mp (by omega)
    simp [hmore]

/-- Between two parts of a text there is no character. -/
theorem isValid_utf8Len {text : String} {before after : List Char}
    (h : text.toList = before ++ after) :
    String.Pos.Raw.IsValid text ⟨String.utf8Len before⟩ := by
  rw [String.Pos.Raw.isValid_iff_exists_append]
  refine ⟨String.ofList before, String.ofList after, ?_, ?_⟩
  · rw [← String.ofList_append, ← h, String.ofList_toList]
  · rw [String.rawEndPos_ofList]

/-- A piece is where the bytes before it and in it say. -/
theorem extract_utf8Len {text : String} {before w after : List Char}
    (h : text.toList = before ++ w ++ after) :
    String.Pos.Raw.extract text ⟨String.utf8Len before⟩ ⟨String.utf8Len (before ++ w)⟩ =
      String.ofList w := by
  rw [← String.ofList_toList (s := text), h, String.utf8Len_append]
  exact String.extract_of_valid before w after

/-- Between two places of a text stands what is written there. -/
theorem cut?_eq {text : String} {before w after : List Char}
    (h : text.toList = before ++ w ++ after) :
    cut? text (String.utf8Len before) (String.utf8Len (before ++ w)) = some (String.ofList w) := by
  rw [cut?, if_pos, extract_utf8Len h]
  refine ⟨?_, isValid_utf8Len (h.trans (List.append_assoc before w after)), isValid_utf8Len h⟩
  rw [String.utf8Len_append]
  omega

/-- Up to the first character of another kind all are of one kind. -/
theorem find?_places (p : Char → Bool) (start : Nat) (cs : List Char) :
    (((places start cs).find? fun place => !p place.2).map Prod.fst).getD
        (start + String.utf8Len cs) = start + String.utf8Len (cs.takeWhile p) := by
  induction cs generalizing start with
  | nil => rfl
  | cons c cs ih =>
    rw [places, List.find?_cons, List.takeWhile_cons]
    cases hc : p c with
    | true =>
      rw [String.utf8Len_cons, ← Nat.add_assoc, Nat.add_right_comm]
      refine (ih (start + c.utf8Size)).trans ?_
      simp only [if_true, String.utf8Len_cons]
      omega
    | false => rfl

/-! ### Bytes -/

/-- The bytes of a text in UTF-8. -/
def bytesOf (text : String) : List UInt8 :=
  text.toUTF8.data.toList

/-- The bytes of a text are those of its characters. -/
theorem bytesOf_eq (text : String) :
    bytesOf text = text.toList.flatMap String.utf8EncodeChar := by
  have hbytes : text.toUTF8 = text.toList.utf8Encode := String.utf8Encode_toList.symm
  rw [bytesOf, hbytes, List.utf8Encode, List.data_toByteArray, List.toList_toArray]

/-- Characters have as many bytes as they take. -/
theorem length_flatMap_utf8EncodeChar (cs : List Char) :
    (cs.flatMap String.utf8EncodeChar).length = String.utf8Len cs := by
  induction cs with
  | nil => rfl
  | cons c cs ih =>
    rw [List.flatMap_cons, List.length_append, String.length_utf8EncodeChar, ih,
      String.utf8Len_cons, Nat.add_comm]

/-- A character is one byte of its own number, or all its bytes are beyond ASCII. -/
theorem utf8EncodeChar_cases (c : Char) :
    (c.toNat < 128 ∧ String.utf8EncodeChar c = [UInt8.ofNat c.toNat]) ∨
      128 ≤ c.toNat ∧ ∃ b rest, String.utf8EncodeChar c = b :: rest ∧ 128 ≤ b.toNat := by
  have hnumber : c.val.toNat = c.toNat := rfl
  rw [String.utf8EncodeChar, hnumber]
  split
  · rename_i hascii
    exact .inl ⟨Nat.lt_succ_of_le hascii, rfl⟩
  · -- The first byte begins with a bit that is set.
    rename_i hwide
    refine .inr ⟨by omega, ?_⟩
    split
    · exact ⟨_, _, rfl, by rw [UInt8.toNat_ofNat']; omega⟩
    · split
      · exact ⟨_, _, rfl, by rw [UInt8.toNat_ofNat']; omega⟩
      · exact ⟨_, _, rfl, by rw [UInt8.toNat_ofNat']; omega⟩

/-- A character of ASCII takes one byte. -/
theorem utf8Size_of_lt {c : Char} (h : c.toNat < 128) : c.utf8Size = 1 :=
  Char.utf8Size_eq_one_iff.mpr (UInt32.le_iff_toNat_le.mpr (Nat.le_of_lt_succ h))

/-- A text of ASCII has as many bytes as characters. -/
theorem utf8Len_of_lt {cs : List Char} (h : ∀ c ∈ cs, c.toNat < 128) :
    String.utf8Len cs = cs.length := by
  induction cs with
  | nil => rfl
  | cons c cs ih =>
    rw [List.forall_mem_cons] at h
    rw [String.utf8Len_cons, ih h.2, utf8Size_of_lt h.1, List.length_cons]

end InputScript
