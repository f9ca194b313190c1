import InputScript.Json.Numeral
import InputScript.Json.Text

/-!
# `InputScript.Json.Skip`: passing over a value

A value that nobody asks for still has to be well formed. It may be nested to any depth,
so the arrays and objects that are open are kept in a list, the innermost first, and
every symbol only looks at the head of that list.

`length_lt_of_skipScalar` and `length_lt_of_skipKey` are why skipping ends, and
`length_lt_of_skipValue` says that it takes something off the text.
-/

set_option autoImplicit false

namespace InputScript.Json

/-- What may hold other values. -/
inductive Container where
  | array
  | object
deriving DecidableEq, Repr

/-- The symbol that ends a container. -/
def Container.closing : Container → Char
  | array => ']'
  | object => '\x7d'

/-- Passes over a value that holds no other values. -/
def skipScalar (cs : List Char) : Except Fault (List Char) :=
  match cs with
  | [] => .error .unfinished
  | 'n' :: rest => word ['u', 'l', 'l'] rest
  | 't' :: rest => word ['r', 'u', 'e'] rest
  | 'f' :: rest => word ['a', 'l', 's', 'e'] rest
  | '"' :: rest => Text.skip rest
  | c :: rest =>
    if c = '-' || Number.isDigit c then Numeral.skip (c :: rest) else .error .malformed

/-- Reads the colon between a key and its value. -/
def colon (cs : List Char) : Except Fault (List Char) :=
  match dropBlanks cs with
  | [] => .error .unfinished
  | ':' :: rest => .ok rest
  | _ => .error .malformed

/-- Passes over a key and the colon after it. -/
def skipKey (cs : List Char) : Except Fault (List Char) :=
  match dropBlanks cs with
  | [] => .error .unfinished
  | '"' :: rest =>
    match Text.skip rest with
    | .error fault => .error fault
    | .ok after => colon after
  | _ => .error .malformed

/-- What follows a skipped scalar is shorter. -/
theorem length_lt_of_skipScalar {cs rest : List Char} (h : skipScalar cs = .ok rest) :
    rest.length < cs.length := by
  unfold skipScalar at h
  split at h
  · cases h
  · exact Nat.lt_succ_of_le (length_word_le h)
  · exact Nat.lt_succ_of_le (length_word_le h)
  · exact Nat.lt_succ_of_le (length_word_le h)
  · exact Nat.lt_succ_of_lt (Text.length_lt_of_skip h)
  · split at h
    · exact Numeral.length_lt_of_skip h
    · cases h

/-- What follows a colon is shorter. -/
theorem length_lt_of_colon {cs rest : List Char} (h : colon cs = .ok rest) :
    rest.length < cs.length := by
  unfold colon at h
  split at h
  · cases h
  · rename_i hcolon
    cases h
    exact length_lt_of_dropBlanks hcolon
  · cases h

/-- What follows a skipped key is shorter. -/
theorem length_lt_of_skipKey {cs rest : List Char} (h : skipKey cs = .ok rest) :
    rest.length < cs.length := by
  unfold skipKey at h
  split at h
  · cases h
  · rename_i hquote
    split at h
    · cases h
    · rename_i htext
      have := length_lt_of_dropBlanks hquote
      have := Text.length_lt_of_skip htext
      have := length_lt_of_colon h
      omega
  · cases h

mutual

/-- Passes over a value and then over all that the open containers still hold. -/
def skipValue (inside : List Container) (cs : List Char) : Except Fault (List Char) :=
  match _h : dropBlanks cs with
  | [] => .error .unfinished
  | '[' :: rest => skipFirst .array inside rest
  | '\x7b' :: rest => skipFirst .object inside rest
  | c :: others =>
    match _hscalar : skipScalar (c :: others) with
    | .error fault => .error fault
    | .ok rest => skipAfter inside rest
termination_by 3 * cs.length
decreasing_by
  · have := length_lt_of_dropBlanks _h
    omega
  · have := length_lt_of_dropBlanks _h
    omega
  · have hlt := length_lt_of_skipScalar _hscalar
    have := length_lt_of_dropBlanks _h
    simp only [List.length_cons] at hlt
    omega

/-- Goes on after the symbol that opens a container. -/
def skipFirst (opened : Container) (inside : List Container) (cs : List Char) :
    Except Fault (List Char) :=
  match _h : dropBlanks cs with
  | [] => .error .unfinished
  | c :: rest =>
    if c = opened.closing then skipAfter inside rest else skipItem opened inside cs
termination_by 3 * cs.length + 2
decreasing_by
  · have := length_lt_of_dropBlanks _h
    omega
  · omega

/-- Goes on where an item of the innermost container must begin. -/
def skipItem (innermost : Container) (outer : List Container) (cs : List Char) :
    Except Fault (List Char) :=
  match innermost with
  | .array => skipValue (.array :: outer) cs
  | .object =>
    match _h : skipKey cs with
    | .error fault => .error fault
    | .ok rest => skipValue (.object :: outer) rest
termination_by 3 * cs.length + 1
decreasing_by
  · omega
  · have := length_lt_of_skipKey _h
    omega

/-- Goes on after a value: at a comma or at the end of the innermost container. -/
def skipAfter (inside : List Container) (cs : List Char) : Except Fault (List Char) :=
  match inside with
  | [] => .ok cs
  | innermost :: outer =>
    match _h : dropBlanks cs with
    | [] => .error .unfinished
    | c :: rest =>
      if c = ',' then skipItem innermost outer rest
      else if c = innermost.closing then skipAfter outer rest
      else .error .malformed
termination_by 3 * cs.length
decreasing_by
  · have := length_lt_of_dropBlanks _h
    omega
  · have := length_lt_of_dropBlanks _h
    omega

end

/-! ### Progress

The bounds of the four steps depend on each other, so they are proved together for all
texts up to a length. -/

/-- Each step takes something off the text, but for a step after the last container. -/
private theorem length_of_skip (n : Nat) :
    (∀ inside cs rest, cs.length ≤ n → skipValue inside cs = .ok rest →
      rest.length < cs.length) ∧
    (∀ inside cs rest, cs.length ≤ n → skipAfter inside cs = .ok rest →
      rest.length ≤ cs.length) := by
  induction n with
  | zero =>
    constructor
    · intro inside cs rest hn h
      have hnil := List.length_eq_zero_iff.mp (Nat.le_zero.mp hn)
      subst hnil
      unfold skipValue at h
      cases h
    · intro inside cs rest hn h
      have hnil := List.length_eq_zero_iff.mp (Nat.le_zero.mp hn)
      subst hnil
      unfold skipAfter at h
      split at h
      · cases h
        exact Nat.le_refl _
      · cases h
  | succ n ih =>
    obtain ⟨ihValue, ihAfter⟩ := ih
    have hitem : ∀ innermost outer cs rest, cs.length ≤ n →
        skipItem innermost outer cs = .ok rest → rest.length < cs.length := by
      intro innermost outer cs rest hn h
      unfold skipItem at h
      split at h
      · exact ihValue _ _ _ hn h
      · split at h
        · cases h
        · rename_i hkey
          have hlt := length_lt_of_skipKey hkey
          have := ihValue _ _ _ (by omega) h
          omega
    have hfirst : ∀ opened inside cs rest, cs.length ≤ n →
        skipFirst opened inside cs = .ok rest → rest.length < cs.length := by
      intro opened inside cs rest hn h
      unfold skipFirst at h
      split at h
      · cases h
      · rename_i hfirst
        have hlt := length_lt_of_dropBlanks hfirst
        split at h
        · have := ihAfter _ _ _ (by omega) h
          omega
        · exact hitem _ _ _ _ hn h
    constructor
    · intro inside cs rest hn h
      unfold skipValue at h
      split at h
      · cases h
      · rename_i hopen
        have hlt := length_lt_of_dropBlanks hopen
        have := hfirst _ _ _ _ (by omega) h
        omega
      · rename_i hopen
        have hlt := length_lt_of_dropBlanks hopen
        have := hfirst _ _ _ _ (by omega) h
        omega
      · rename_i hscalar
        split at h
        · cases h
        · rename_i hskip
          have hlt := length_lt_of_dropBlanks hscalar
          have hle := length_lt_of_skipScalar hskip
          simp only [List.length_cons] at hle
          have := ihAfter _ _ _ (by omega) h
          omega
    · intro inside cs rest hn h
      unfold skipAfter at h
      split at h
      · cases h
        exact Nat.le_refl _
      · split at h
        · cases h
        · rename_i hsymbol
          have hlt := length_lt_of_dropBlanks hsymbol
          split at h
          · have := hitem _ _ _ _ (by omega) h
            omega
          · split at h
            · have := ihAfter _ _ _ (by omega) h
              omega
            · cases h

/-- What follows a skipped value is shorter. -/
theorem length_lt_of_skipValue {inside : List Container} {cs rest : List Char}
    (h : skipValue inside cs = .ok rest) : rest.length < cs.length :=
  (length_of_skip cs.length).1 _ _ _ (Nat.le_refl _) h

end InputScript.Json
