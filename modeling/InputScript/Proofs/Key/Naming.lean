import InputScript.Key
import InputScript.Proofs.Source.Spelling
import Mathlib

/-!
# `InputScript.Proofs.Key.Naming`: which texts name which keys

Three kinds of text name a key: a single character, a word of the table and a function key. None of
them is another one as well, so `Key.Named` lists them side by side. What stands in the way of the
letters is left out before, and their case is left out in each of the three.

The reader gives no other keys than those that have a name (`Key.HasName`), and under the name that
is shown for such a key it finds that key again.

* `Key.parse_ok_iff`: the reader against the list of the texts.
* `Key.Named.of_lower`: the case of ASCII letters does not matter.
* `Key.parse_name_iff`: the keys that are read back from their name.
-/

set_option autoImplicit false

namespace InputScript

open Number Text

/-! ### Case -/

/-- A letter is no blank in either case. -/
theorem isBlank_toLower (c : Char) : isBlank c.toLower = isBlank c := by
  by_cases h : c.isUpper = true
  · have hrange : 65 ≤ c.toNat ∧ c.toNat ≤ 90 := by
      simpa [Char.isUpper, UInt32.le_iff_toNat_le] using h
    have hlower : c.toLower.toNat = c.toNat + 32 := by
      rw [Char.toLower_eq_of_isUpper h, Char.toNat_ofNat, if_pos (.inl (by omega))]
    simp only [isBlank, hlower]
    grind
  · rw [Char.toLower_eq_of_not_isUpper h]

theorem isBlank_toUpper (c : Char) : isBlank c.toUpper = isBlank c := by
  rw [← isBlank_toLower c.toUpper, Char.toLower_toUpper_eq_toLower, isBlank_toLower]

/-- Trimming does not look at the case of letters. -/
theorem trim_lower (cs : List Char) : trim (lower cs) = lower (trim cs) := by
  have hblank : isBlank ∘ Char.toLower = isBlank := funext isBlank_toLower
  simp only [trim, trimStart, trimEnd, lower, ← List.map_reverse, List.dropWhile_map, hblank]

/-- A character that is no letter is that of one character in lower case, itself. -/
theorem toLower_eq_iff {c d : Char} (hd : d.isAlpha = false) : c.toLower = d ↔ c = d := by
  constructor
  · intro h
    by_cases hletter : c.isUpper = true
    · have halpha : c.toLower.isAlpha = true := by simp [Char.isAlpha, hletter]
      rw [h, hd] at halpha
      cases halpha
    · rwa [Char.toLower_eq_of_not_isUpper hletter] at h
  · rintro rfl
    refine Char.toLower_eq_of_not_isUpper fun hletter => ?_
    simp [Char.isAlpha, hletter] at hd

/-- Only a plus sign is one in lower case. -/
theorem plus_mem_lower_iff {cs : List Char} : '+' ∈ lower cs ↔ '+' ∈ cs := by
  simp only [lower, List.mem_map, toLower_eq_iff (show '+'.isAlpha = false from rfl),
    exists_eq_right]

namespace Key

/-! ### The texts that name a key -/

/-- The texts that name a key, without the blanks around them. -/
inductive Named : List Char → Key → Prop where
  /-- A character names the key that types it. -/
  | char (c : Char) : Named [c] (.char c.toUpper)
  /-- A word of the table. -/
  | word (w : List Char) (key : Key) (h : names.lookup (String.ofList (lower w)) = some key) :
      Named w key
  /-- The letter `F` and a number from 1 to 24, perhaps with a plus sign and leading zeros. -/
  | function (f : Char) (digits : List Char) (n : Nat) (hf : f.toLower = 'f')
      (hn : byte? (String.ofList (lower digits)) = some n) (hlow : 1 ≤ n) (hhigh : n ≤ 24) :
      Named (f :: digits) (.function n)

/-- The table holds words of two letters or more, with no plus sign, and none begins with `f`. -/
theorem names_plain : ∀ entry ∈ names, 2 ≤ entry.1.toList.length ∧ '+' ∉ entry.1.toList ∧
    entry.1.toList.head? ≠ some 'f' := by
  decide

/-- A word that is found stands in the table. -/
theorem mem_names_of_lookup {w : List Char} {key : Key}
    (h : names.lookup (String.ofList w) = some key) : (String.ofList w, key) ∈ names := by
  obtain ⟨before, after, hsplit, -⟩ := List.lookup_eq_some_iff.mp h
  rw [hsplit]
  exact List.mem_append_right before List.mem_cons_self

/-- A name of a function key, in lower case. -/
theorem function?_eq_some_iff {name : List Char} {key : Key} : function? name = some key ↔
    ∃ digits n, name = 'f' :: digits ∧ key = .function n ∧
      byte? (String.ofList digits) = some n ∧ 1 ≤ n ∧ n ≤ 24 := by
  rw [function?.eq_def]
  split
  · rename_i digits
    simp only [Option.map_eq_some_iff, Option.filter_eq_some_iff, Bool.and_eq_true,
      decide_eq_true_eq, List.cons.injEq, true_and]
    constructor
    · rintro ⟨n, ⟨hn, hlow, hhigh⟩, rfl⟩
      exact ⟨digits, n, rfl, rfl, hn, hlow, hhigh⟩
    · rintro ⟨_, n, rfl, rfl, hn, hlow, hhigh⟩
      exact ⟨n, ⟨hn, hlow, hhigh⟩, rfl⟩
  · rename_i hother
    refine iff_of_false (by simp) ?_
    rintro ⟨digits, n, rfl, -⟩
    exact hother digits rfl

/-- A name of at least two characters is looked up in the table first. -/
theorem ofName_of_long {cs : List Char} (hlong : 2 ≤ cs.length) : ofName cs =
    match names.lookup (String.ofList (lower cs)) with
    | some key => .ok key
    | none =>
      match function? (lower cs) with
      | some key => .ok key
      | none => .error (.unknown (String.ofList cs)) := by
  match cs, hlong with
  | _ :: _ :: _, _ => rfl

/-- The reader of a name without blanks around it gives the key that the name stands for. -/
theorem ofName_ok_iff {cs : List Char} {key : Key} : ofName cs = .ok key ↔ Named cs key := by
  constructor
  · intro h
    match cs, h with
    | [c], rfl => exact .char c
    | c :: d :: rest, h =>
      rw [ofName_of_long (by simp)] at h
      split at h
      · rename_i hlookup
        cases h
        exact .word _ _ hlookup
      · split at h
        · rename_i hfunction
          cases h
          obtain ⟨digits, n, hname, rfl, hn, hlow, hhigh⟩ := function?_eq_some_iff.mp hfunction
          obtain ⟨hf, rfl⟩ := List.cons.inj hname
          exact .function c (d :: rest) n hf hn hlow hhigh
        · cases h
  · rintro (⟨c⟩ | ⟨w, key, h⟩ | ⟨f, digits, n, hf, hn, hlow, hhigh⟩)
    · rfl
    · have hlong : 2 ≤ cs.length := by
        simpa [lower] using (names_plain _ (mem_names_of_lookup h)).1
      rw [ofName_of_long hlong, h]
    · have hlong : 2 ≤ (f :: digits).length := by
        cases digits with
        | nil => cases hn
        | cons => simp
      have hname : lower (f :: digits) = 'f' :: lower digits := congrArg (· :: _) hf
      have hnone : names.lookup (String.ofList (lower (f :: digits))) = none := by
        refine Option.eq_none_iff_forall_ne_some.mpr fun key hkey => ?_
        -- No word of the table begins like a function key.
        refine (names_plain _ (mem_names_of_lookup hkey)).2.2 ?_
        rw [hname, String.toList_ofList, List.head?_cons]
      rw [ofName_of_long hlong, hnone,
        function?_eq_some_iff.mpr ⟨_, n, hname, rfl, hn, hlow, hhigh⟩]

/-- The reader leaves out the blanks around a name. -/
theorem parse_ok_iff {s : String} {key : Key} :
    parse s = .ok key ↔ Named (trim s.toList) key :=
  ofName_ok_iff

/-- The case of ASCII letters does not matter in a name. -/
theorem Named.of_lower {w w' : List Char} {key : Key} (h : Named w key)
    (hcase : lower w' = lower w) : Named w' key := by
  cases h with
  | char c =>
    obtain ⟨c', rfl⟩ : ∃ c', w' = [c'] := by
      rw [← List.length_eq_one_iff, ← List.length_map, show List.map Char.toLower w' = _ from hcase]
      rfl
    have hlower : c'.toLower = c.toLower := (List.cons.inj hcase).1
    have hupper : c'.toUpper = c.toUpper := by
      rw [← Char.toUpper_toLower_eq_toUpper, hlower, Char.toUpper_toLower_eq_toUpper]
    exact hupper ▸ .char c'
  | word _ _ hw => exact .word w' key (hcase ▸ hw)
  | function f digits n hf hn hlow hhigh =>
    cases w' with
    | nil => cases hcase
    | cons f' digits' =>
      obtain ⟨hf', hdigits⟩ := List.cons.inj hcase
      refine .function f' digits' n (hf'.trans hf) ?_ hlow hhigh
      rw [show lower digits' = lower digits from hdigits]
      exact hn

/-! ### The keys that have a name -/

/-- Whether a key is found under some name: the key of a character if that is no blank and no
lower-case letter, a function key if its number is from 1 to 24, and every other key. -/
def HasName : Key → Prop
  | .char c => isBlank c = false ∧ c.isLower = false
  | .function n => 1 ≤ n ∧ n ≤ 24
  | _ => True

/-- The keys of the table have a name, and none is the key of a character. -/
theorem names_hasName : ∀ entry ∈ names, entry.2.HasName ∧ ∀ c, entry.2 ≠ .char c := by
  simp [names, HasName]

/-- What the reader finds under a name has a name. -/
theorem Named.hasName {w : List Char} {key : Key} (h : Named w key) (htrimmed : Trimmed w) :
    key.HasName := by
  cases h with
  | char c =>
    refine ⟨?_, Char.isLower_toUpper_eq_false c⟩
    rw [isBlank_toUpper]
    exact htrimmed.first c rfl
  | word _ _ hw => exact (names_hasName _ (mem_names_of_lookup hw)).1
  | function _ _ n _ _ hlow hhigh => exact ⟨hlow, hhigh⟩

/-- A key that has a name is found under the name that is shown for it. -/
theorem HasName.parse_name {key : Key} (h : key.HasName) : parse key.name = .ok key := by
  cases key with
  | char c =>
    obtain ⟨hblank, hlower⟩ := h
    have hparse := parse_singleton hblank
    rwa [Char.toUpper_eq_of_not_isLower (by simp [hlower])] at hparse
  | function n =>
    obtain ⟨hlow, hhigh⟩ := h
    interval_cases n <;> rfl
  | _ => rfl

/-- The keys that are read back from the name that is shown for them are those that have one. -/
theorem parse_name_iff {key : Key} : parse key.name = .ok key ↔ key.HasName :=
  ⟨fun h => (parse_ok_iff.mp h).hasName (trimmed_trim _), HasName.parse_name⟩

end Key

end InputScript
