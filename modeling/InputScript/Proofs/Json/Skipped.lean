import InputScript.Proofs.Json.Written
import Mathlib.Data.String.Basic

/-!
# `InputScript.Proofs.Json.Skipped`: well-formed values are passed over

`IsJson` is the grammar of values without a reader: words, numbers, texts, and containers to any
depth with blanks between their symbols. A value that nobody asks for is passed over if it is in
this grammar, whatever stands around it.

While values are passed over, the containers that are open are kept in a list. So the grammar has a
part for each place in a container, `Part.Skips` says what skipping does in front of each part, and
the induction over the grammar goes through all of them.

* `Text.IsBody`, `IsScalar`: values that hold no others.
* `IsJson`, `IsJson.skips`: all values.
* `skipValue_of_isJson`: a value that stands alone.
-/

set_option autoImplicit false

namespace InputScript.Json

open Number

/-! ### Texts -/

namespace Text

/-- Four characters take four bytes at least. -/
theorem unit_of_hexValue {a b c d : Char} {n : Nat} (h : hexValue? a b c d = some n)
    (rest : List Char) : unit (a :: b :: c :: d :: rest) = .ok (n, rest) := by
  have hbytes : ¬ (String.ofList ((a :: b :: c :: d :: rest).take 4)).utf8ByteSize < 4 := by
    have := a.utf8Size_pos
    have := b.utf8Size_pos
    have := c.utf8Size_pos
    have := d.utf8Size_pos
    simp only [List.take_succ_cons, List.take_zero, String.utf8ByteSize_ofList,
      String.utf8Len_cons, String.utf8Len_nil]
    omega
  rw [unit, if_neg hbytes, h]

/-- What may stand between two double quotes. An escape may give any UTF-16 unit. -/
inductive IsBody : List Char → Prop
  | nil : IsBody []
  | plain {c : Char} {cs : List Char} : c ≠ '"' → c ≠ '\\' → 0x20 ≤ c.toNat → IsBody cs →
      IsBody (c :: cs)
  | letter {c : Char} {cs : List Char} : (letter? c).isSome = true → IsBody cs →
      IsBody ('\\' :: c :: cs)
  | unit {a b c d : Char} {cs : List Char} : (hexValue? a b c d).isSome = true → IsBody cs →
      IsBody ('\\' :: 'u' :: a :: b :: c :: d :: cs)

/-- What follows an escape is skipped. -/
theorem skip_escape {escaped rest : List Char} (h : skipEscape escaped = .ok rest) :
    skip ('\\' :: escaped) = skip rest := by
  rw [skip]
  split
  · rename_i hescape
    rw [h] at hescape
    cases hescape
  · rename_i hescape
    rw [h] at hescape
    cases hescape
    rfl

/-- A text is passed over up to its closing quote. -/
theorem skip_of_isBody {body : List Char} (h : IsBody body) (rest : List Char) :
    skip (body ++ '"' :: rest) = .ok rest := by
  induction h with
  | nil => rw [List.nil_append, skip]
  | @plain c cs hquote hescape hcontrol _ ih =>
    rw [List.cons_append, skip, if_neg (Nat.not_lt.mpr hcontrol), ih]
    · exact hquote
    · exact hescape
  | @letter c cs hletter _ ih =>
    have hescape : skipEscape (c :: (cs ++ '"' :: rest)) = .ok (cs ++ '"' :: rest) := by
      rw [skipEscape, if_pos hletter]
      rintro rfl
      cases hletter
    rw [List.cons_append, List.cons_append, skip_escape hescape, ih]
  | @unit a b c d cs hvalue _ ih =>
    obtain ⟨n, hn⟩ := Option.isSome_iff_exists.mp hvalue
    have hescape : skipEscape ('u' :: a :: b :: c :: d :: (cs ++ '"' :: rest)) =
        .ok (cs ++ '"' :: rest) := by
      rw [skipEscape, unit_of_hexValue hn]
      rfl
    simp only [List.cons_append]
    rw [skip_escape hescape, ih]

end Text

/-! ### Values that hold no others -/

/-- A value that holds no other values. -/
inductive IsScalar : List Char → Prop
  | null : IsScalar ['n', 'u', 'l', 'l']
  | isTrue : IsScalar ['t', 'r', 'u', 'e']
  | isFalse : IsScalar ['f', 'a', 'l', 's', 'e']
  | number {x : Numeral} {cs : List Char} : x.Writes cs → IsScalar cs
  | text {body : List Char} : Text.IsBody body → IsScalar ('"' :: (body ++ ['"']))

/-- Whether a character opens or closes a container. -/
def isBracket (c : Char) : Bool :=
  c = '[' || c = ']' || c = '\x7b' || c = '\x7d'

/-- A number begins with neither a blank, nor a bracket, nor a character that another value begins
with. -/
theorem Numeral.Writes.begins {x : Numeral} {cs : List Char} (h : x.Writes cs) :
    ∃ c r, cs = c :: r ∧ (c = '-' || isDigit c) = true ∧ isBlank c = false ∧
      isBracket c = false ∧ c ≠ 'n' ∧ c ≠ 't' ∧ c ≠ 'f' ∧ c ≠ '"' := by
  obtain ⟨c, r, rfl, hc⟩ := h.exists_cons
  have hne (d : Char) (hd : (d = '-' || isDigit d) = false) : c ≠ d := by
    rintro rfl
    rw [hd] at hc
    cases hc
  refine ⟨c, r, rfl, hc, ?_, ?_, hne 'n' rfl, hne 't' rfl, hne 'f' rfl, hne '"' rfl⟩
  · simp [isBlank, hne ' ' rfl, hne '\t' rfl, hne '\n' rfl, hne '\r' rfl]
  · simp [isBracket, hne '[' rfl, hne ']' rfl, hne '\x7b' rfl, hne '\x7d' rfl]

theorem IsScalar.begins {cs : List Char} (h : IsScalar cs) :
    ∃ c r, cs = c :: r ∧ isBlank c = false ∧ isBracket c = false := by
  cases h with
  | number hx =>
    obtain ⟨c, r, rfl, -, hblank, hbracket, -⟩ := hx.begins
    exact ⟨c, r, rfl, hblank, hbracket⟩
  | null | isTrue | isFalse | text => exact ⟨_, _, rfl, by decide, by decide⟩

/-- A scalar is passed over up to what stands behind it. -/
theorem IsScalar.skip {cs rest : List Char} (h : IsScalar cs) (hrest : EndsNumber rest) :
    skipScalar (cs ++ rest) = .ok rest := by
  cases h with
  | null | isTrue | isFalse => rfl
  | @number x cs hx =>
    have hskip : Numeral.skip (cs ++ rest) = .ok rest := by
      rw [Numeral.skip, hx.scan .malformed hrest]
    obtain ⟨c, r, rfl, hc, -, -, hnull, htrue, hfalse, hquote⟩ := hx.begins
    rw [List.cons_append, skipScalar, if_pos hc]
    · exact hskip
    all_goals assumption
  | @text body hbody =>
    simp only [List.cons_append, List.append_assoc, List.nil_append]
    exact Text.skip_of_isBody hbody rest

/-! ### All values -/

/-- The symbol that begins a container. -/
def Container.opening : Container → Char
  | array => '['
  | object => '\x7b'

/-- A part of a text: a value, an item of a container, or one item and all that follow it. -/
inductive Part where
  | value
  | item (c : Container)
  | items (c : Container)

/-- The values of JSON and their parts, without blanks in front. -/
inductive IsJson : Part → List Char → Prop
  | scalar {cs : List Char} : IsScalar cs → IsJson .value cs
  | empty {c : Container} {space : List Char} : IsSpace space →
      IsJson .value (c.opening :: (space ++ [c.closing]))
  | filled {c : Container} {space cs : List Char} : IsSpace space → IsJson (.items c) cs →
      IsJson .value (c.opening :: (space ++ (cs ++ [c.closing])))
  | element {cs : List Char} : IsJson .value cs → IsJson (.item .array) cs
  | member {key space space' cs : List Char} : Text.IsBody key → IsSpace space →
      IsSpace space' → IsJson .value cs →
      IsJson (.item .object) ('"' :: (key ++ '"' :: (space ++ ':' :: (space' ++ cs))))
  | last {c : Container} {cs space : List Char} : IsJson (.item c) cs → IsSpace space →
      IsJson (.items c) (cs ++ space)
  | more {c : Container} {cs space space' tail : List Char} : IsJson (.item c) cs →
      IsSpace space → IsSpace space' → IsJson (.items c) tail →
      IsJson (.items c) (cs ++ (space ++ ',' :: (space' ++ tail)))

/-- A part begins with no blank and closes no container. -/
theorem IsJson.begins {part : Part} {cs : List Char} (h : IsJson part cs) :
    ∃ c r, cs = c :: r ∧ isBlank c = false ∧ ∀ d : Container, c ≠ d.closing := by
  induction h with
  | scalar hcs =>
    obtain ⟨c, r, rfl, hblank, hbracket⟩ := hcs.begins
    refine ⟨c, r, rfl, hblank, ?_⟩
    rintro d rfl
    cases d <;> cases hbracket
  | @empty c | @filled c =>
    refine ⟨c.opening, _, rfl, by cases c <;> rfl, ?_⟩
    intro d
    cases c <;> cases d <;> decide
  | element _ ih => exact ih
  | member => exact ⟨'"', _, rfl, by decide, by rintro (_ | _) <;> decide⟩
  | last _ _ ih | more _ _ _ _ ih _ =>
    obtain ⟨c, r, rfl, hc⟩ := ih
    exact ⟨c, _, rfl, hc⟩

/-- What skipping does in front of a part, with the containers that are open. -/
def Part.Skips (part : Part) (cs : List Char) : Prop :=
  ∀ (inside : List Container) (space rest : List Char), IsSpace space →
    match part with
    | .value => EndsNumber rest →
        skipValue inside (space ++ (cs ++ rest)) = skipAfter inside rest
    | .item c => EndsNumber rest →
        skipItem c inside (space ++ (cs ++ rest)) = skipAfter (c :: inside) rest
    | .items c => skipItem c inside (space ++ (cs ++ c.closing :: rest)) = skipAfter inside rest

variable {inside : List Container} {c : Container} {cs rest space : List Char}

/-- Behind a value a comma goes on with the innermost container, and its closing symbol with what
is around it. -/
theorem skipAfter_eq {d : Char} (hdrop : dropBlanks cs = d :: rest) :
    skipAfter (c :: inside) cs =
      if d = ',' then skipItem c inside rest
      else if d = c.closing then skipAfter inside rest
      else .error .malformed := by
  rw [skipAfter]
  split
  · rename_i heq
    rw [hdrop] at heq
    cases heq
  · rename_i heq
    rw [hdrop] at heq
    cases heq
    rfl

theorem skipAfter_comma (hspace : IsSpace space) (rest : List Char) :
    skipAfter (c :: inside) (space ++ ',' :: rest) = skipItem c inside rest := by
  rw [skipAfter_eq (dropBlanks_append hspace (by decide) rest), if_pos rfl]

theorem isBlank_closing (c : Container) : isBlank c.closing = false := by
  cases c <;> rfl

theorem skipAfter_close (hspace : IsSpace space) (rest : List Char) :
    skipAfter (c :: inside) (space ++ c.closing :: rest) = skipAfter inside rest := by
  have hcomma : c.closing ≠ ',' := by cases c <;> decide
  rw [skipAfter_eq (dropBlanks_append hspace (isBlank_closing c) rest), if_neg hcomma, if_pos rfl]

/-- Behind an opening symbol a container ends or goes on with its first item. -/
theorem skipFirst_eq {d : Char} (hdrop : dropBlanks cs = d :: rest) :
    skipFirst c inside cs =
      if d = c.closing then skipAfter inside rest else skipItem c inside cs := by
  rw [skipFirst]
  split
  · rename_i heq
    rw [hdrop] at heq
    cases heq
  · rename_i heq
    rw [hdrop] at heq
    cases heq
    rfl

/-- A container is opened. -/
theorem skipValue_open (hspace : IsSpace space) (c : Container) (cs : List Char) :
    skipValue inside (space ++ c.opening :: cs) = skipFirst c inside cs := by
  have hblank : isBlank c.opening = false := by cases c <;> rfl
  have hdrop := dropBlanks_append hspace hblank cs
  rw [skipValue]
  split
  · rename_i heq
    rw [hdrop] at heq
    cases heq
  · rename_i heq
    rw [hdrop] at heq
    cases c <;> cases heq
    rfl
  · rename_i heq
    rw [hdrop] at heq
    cases c <;> cases heq
    rfl
  · rename_i harray hobject heq
    rw [hdrop] at heq
    cases heq
    cases c with
    | array => exact absurd rfl harray
    | object => exact absurd rfl hobject

/-- A value that holds no others is passed over, and then what is around it. -/
theorem skipValue_scalar (hspace : IsSpace space) (h : IsScalar cs) (hrest : EndsNumber rest) :
    skipValue inside (space ++ (cs ++ rest)) = skipAfter inside rest := by
  have hskip := h.skip hrest
  obtain ⟨d, r, rfl, hblank, hbracket⟩ := h.begins
  have hdrop := dropBlanks_append hspace hblank (r ++ rest)
  rw [List.cons_append] at hskip ⊢
  rw [skipValue]
  split
  · rename_i heq
    rw [hdrop] at heq
    cases heq
  · rename_i heq
    rw [hdrop] at heq
    cases heq
    cases hbracket
  · rename_i heq
    rw [hdrop] at heq
    cases heq
    cases hbracket
  · rename_i heq
    rw [hdrop] at heq
    cases heq
    split
    · rename_i heq
      rw [hskip] at heq
      cases heq
    · rename_i heq
      rw [hskip] at heq
      cases heq
      rfl

/-- A key is passed over with the colon behind it. -/
theorem skipItem_object {key space' : List Char} (hspace : IsSpace space)
    (hkey : Text.IsBody key) (hspace' : IsSpace space') (cs : List Char) :
    skipItem .object inside (space ++ '"' :: (key ++ '"' :: (space' ++ ':' :: cs))) =
      skipValue (.object :: inside) cs := by
  have hskip : skipKey (space ++ '"' :: (key ++ '"' :: (space' ++ ':' :: cs))) = .ok cs := by
    rw [skipKey, dropBlanks_append hspace (by decide)]
    simp only [Text.skip_of_isBody hkey]
    exact Reader.colon_append hspace' cs
  rw [skipItem]
  split
  · rename_i heq
    rw [hskip] at heq
    cases heq
  · rename_i heq
    rw [hskip] at heq
    cases heq
    rfl

/-- Every part of a value is passed over, whatever stands around it. -/
theorem IsJson.skips {part : Part} (h : IsJson part cs) : part.Skips cs := by
  -- Inside a container its items are skipped with one container more that is open.
  induction h with
  | scalar hcs =>
    intro inside before rest hbefore hrest
    exact skipValue_scalar hbefore hcs hrest
  | @empty c space hspace =>
    intro inside before rest hbefore _
    simp only [List.cons_append, List.append_assoc, List.nil_append]
    rw [skipValue_open hbefore, skipFirst_eq (dropBlanks_append hspace (isBlank_closing c) rest),
      if_pos rfl]
  | @filled c space cs hspace hitems ih =>
    intro inside before rest hbefore _
    have hskip := ih inside space rest hspace
    obtain ⟨d, r, rfl, hblank, hclosing⟩ := hitems.begins
    simp only [List.cons_append, List.append_assoc, List.nil_append] at hskip ⊢
    rw [skipValue_open hbefore, skipFirst_eq (dropBlanks_append hspace hblank _),
      if_neg (hclosing c)]
    exact hskip
  | element _ ih =>
    intro inside before rest hbefore hrest
    rw [skipItem]
    exact ih (.array :: inside) before rest hbefore hrest
  | @member key space space' cs hkey hspace hspace' _ ih =>
    intro inside before rest hbefore hrest
    simp only [List.cons_append, List.append_assoc]
    rw [skipItem_object hbefore hkey hspace]
    exact ih (.object :: inside) space' rest hspace' hrest
  | @last c cs space _ hspace ih =>
    intro inside before rest hbefore
    have hends : EndsNumber (space ++ c.closing :: rest) :=
      endsNumber_separator hspace (by cases c <;> rfl) rest
    dsimp only
    rw [List.append_assoc, ih inside before _ hbefore hends, skipAfter_close hspace]
  | @more c cs space space' tail _ hspace hspace' _ ih ihtail =>
    intro inside before rest hbefore
    have hends : EndsNumber (space ++ ',' :: (space' ++ (tail ++ c.closing :: rest))) :=
      endsNumber_separator hspace (by rfl) _
    simp only [List.append_assoc, List.cons_append]
    rw [ih inside before _ hbefore hends, skipAfter_comma hspace]
    exact ihtail inside space' rest hspace'

/-- A value that stands alone is passed over. -/
theorem skipValue_of_isJson (h : IsJson .value cs) (hspace : IsSpace space)
    (hrest : EndsNumber rest) : skipValue [] (space ++ (cs ++ rest)) = .ok rest := by
  have hskips := h.skips [] space rest hspace hrest
  rw [hskips, skipAfter]

end InputScript.Json
