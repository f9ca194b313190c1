/-!
# `InputScript.Text.Blank`: white space and trimming

White space is the standard's `White_Space` property: the ASCII blanks and line
breaks, the no-break space, and the wider blanks beyond ASCII. Zero-width
characters are not in it.

`isBlank_of_isWhitespace`: every blank of the core library is a blank here.
`isBlank_of_head?_trimStart` and `trim_eq_self` say what trimming leaves.
-/

set_option autoImplicit false

namespace InputScript.Text

/-- The 25 characters of the `White_Space` property. -/
def isBlank (c : Char) : Bool :=
  let n := c.toNat
  (0x9 ≤ n && n ≤ 0xD) || n == 0x20 || n == 0x85 || n == 0xA0 || n == 0x1680 ||
    (0x2000 ≤ n && n ≤ 0x200A) || n == 0x2028 || n == 0x2029 || n == 0x202F ||
    n == 0x205F || n == 0x3000

/-- Drops the blanks in front. -/
def trimStart (cs : List Char) : List Char :=
  cs.dropWhile isBlank

/-- Drops the blanks at the end. -/
def trimEnd (cs : List Char) : List Char :=
  (cs.reverse.dropWhile isBlank).reverse

/-- Drops the blanks at both ends. -/
def trim (cs : List Char) : List Char :=
  trimEnd (trimStart cs)

/-- Every white space character of the core library is a blank. -/
theorem isBlank_of_isWhitespace {c : Char} (h : c.isWhitespace = true) :
    isBlank c = true := by
  simp only [Char.isWhitespace, Bool.or_eq_true, decide_eq_true_eq] at h
  rcases h with ((rfl | rfl) | rfl) | rfl <;> rfl

/-- What `trimStart` leaves begins with no blank. -/
theorem isBlank_of_head?_trimStart {cs : List Char} {c : Char}
    (h : (trimStart cs).head? = some c) : isBlank c = false := by
  induction cs with
  | nil => simp [trimStart] at h
  | cons d ds ih =>
    simp only [trimStart, List.dropWhile_cons] at h ih
    cases hd : isBlank d with
    | true => exact ih (by simpa [hd] using h)
    | false =>
      simp only [hd, Bool.false_eq_true, if_false, List.head?_cons, Option.some.injEq] at h
      exact h ▸ hd

/-- Text whose first and last characters are no blanks is left as it is. -/
theorem trim_eq_self {cs : List Char}
    (hfirst : ∀ c, cs.head? = some c → isBlank c = false)
    (hlast : ∀ c, cs.getLast? = some c → isBlank c = false) : trim cs = cs := by
  have hstart : trimStart cs = cs := by
    cases cs with
    | nil => rfl
    | cons c cs => simp [trimStart, hfirst c rfl]
  rw [trim, hstart, trimEnd]
  cases hrev : cs.reverse with
  | nil => simp_all
  | cons c ds =>
    have hc : isBlank c = false := by
      apply hlast
      rw [List.getLast?_eq_head?_reverse, hrev, List.head?_cons]
    rw [List.dropWhile_cons, hc]
    simp [← hrev]

end InputScript.Text
