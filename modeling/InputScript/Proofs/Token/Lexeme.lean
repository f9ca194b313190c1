import InputScript.Token
import InputScript.Proofs.Number.Natural
import InputScript.Proofs.Source.Spelling

/-!
# `InputScript.Proofs.Token.Lexeme`: the grammar of one token

`Reads` says what a token is and where it ends, without a scan: a word is the longest run of
alphanumeric characters, a number the longest numeral, and a literal goes on up to the first quote
or line feed that no backslash hides. `extent` finds these tokens and no others.

* `IsLongest`: the longest word of a language at the front of a text. There is at most one.
* `IsDecimal`, `IsNumeral`, `number?_cases`: numbers.
* `IsOpen`, `EndsLiteral`, `literal_iff`: literals. A literal is left open as long as it holds no
  quote and no line feed but behind a backslash.
* `Reads`, `reads_extent`, `extent_of_reads`: any token.
-/

set_option autoImplicit false

namespace InputScript.Token

open Number Text

/-! ### Characters of different kinds -/

/-- Two properties whose ranges lie apart have no character in common. -/
theorem has_eq_false_of_apart {r s : Ranges} {n : Nat}
    (hapart : ∀ x ∈ r, ∀ y ∈ s, x.2 < y.1 ∨ y.2 < x.1) (h : r.has n = true) :
    s.has n = false := by
  rw [Bool.eq_false_iff]
  intro hs
  obtain ⟨x, hx, hx₁, hx₂⟩ := (Ranges.has_iff r n).mp h
  obtain ⟨y, hy, hy₁, hy₂⟩ := (Ranges.has_iff s n).mp hs
  have := hapart x hx y hy
  omega

/-- The ranges of the blanks. -/
def blankRanges : Ranges := [
    (0x9, 0xD), (0x20, 0x20), (0x85, 0x85), (0xA0, 0xA0), (0x1680, 0x1680), (0x2000, 0x200A),
    (0x2028, 0x2029), (0x202F, 0x202F), (0x205F, 0x205F), (0x3000, 0x3000)]

/-- The range of the digits. -/
def digitRanges : Ranges := [(0x30, 0x39)]

theorem has_blankRanges {c : Char} (h : isBlank c = true) : blankRanges.has c.toNat = true := by
  simp only [isBlank, Bool.or_eq_true, Bool.and_eq_true, decide_eq_true_eq, beq_iff_eq] at h
  simp only [blankRanges, Ranges.has, List.any_cons, List.any_nil, Bool.or_eq_true,
    Bool.and_eq_true, decide_eq_true_eq]
  omega

theorem has_digitRanges {c : Char} (h : isDigit c = true) : digitRanges.has c.toNat = true := by
  obtain ⟨hlow, hhigh⟩ := toNat_of_isDigit h
  simp [digitRanges, Ranges.has, hlow, hhigh]

/-- No blank is part of a word. -/
theorem isBlank_of_isAlphanumeric {c : Char} (h : isAlphanumeric c = true) :
    isBlank c = false := by
  rw [Bool.eq_false_iff]
  intro hblank
  have hletter : isAlphabetic c = false :=
    has_eq_false_of_apart (by decide +kernel) (has_blankRanges hblank)
  have hnumber : isNumeric c = false :=
    has_eq_false_of_apart (by decide +kernel) (has_blankRanges hblank)
  rw [isAlphanumeric, hletter, hnumber] at h
  cases h

/-- No digit is a letter. -/
theorem isAlphabetic_of_isDigit {c : Char} (h : isDigit c = true) : isAlphabetic c = false :=
  has_eq_false_of_apart (by decide +kernel) (has_digitRanges h)

/-- No digit is a blank. -/
theorem isBlank_of_isDigit {c : Char} (h : isDigit c = true) : isBlank c = false :=
  (noDelimiter_of_isDigit h).1

/-! ### The longest word of a language -/

/-- A word of a language that begins a text, and no longer word of the language begins it. -/
structure IsLongest (L : List Char → Prop) (w cs : List Char) : Prop where
  mem : L w
  begins : w <+: cs
  longest : ∀ v, L v → v <+: cs → v.length ≤ w.length

theorem IsLongest.unique {L : List Char → Prop} {v w cs : List Char} (hv : IsLongest L v cs)
    (hw : IsLongest L w cs) : v = w := by
  have hle := hw.longest v hv.mem hv.begins
  have hge := hv.longest w hw.mem hw.begins
  exact (List.prefix_of_prefix_length_le hv.begins hw.begins hle).eq_of_length (by omega)

/-- What begins a text and has no line feed in it begins the first line. -/
theorem prefix_of_newline {v cs rest : List Char} (hv : '\n' ∉ v)
    (h : v <+: cs ++ '\n' :: rest) : v <+: cs := by
  rcases List.prefix_or_prefix_of_prefix h (List.prefix_append cs _) with hle | ⟨more, rfl⟩
  · exact hle
  · rw [List.prefix_append_right_inj] at h
    cases more with
    | nil => simp
    | cons c more =>
      obtain ⟨rfl, -⟩ := List.cons_prefix_cons.mp h
      exact absurd (List.mem_append_right cs List.mem_cons_self) hv

/-- A language without line feeds finds nothing more behind one. -/
theorem IsLongest.append_newline {L : List Char → Prop} (hL : ∀ v, L v → '\n' ∉ v)
    {w cs : List Char} (h : IsLongest L w cs) (rest : List Char) :
    IsLongest L w (cs ++ '\n' :: rest) where
  mem := h.mem
  begins := h.begins.trans (List.prefix_append cs _)
  longest v hv hbegins := h.longest v hv (prefix_of_newline (hL v hv) hbegins)

/-- The longest run of characters of one kind. -/
theorem isLongest_takeWhile (p : Char → Bool) (cs : List Char) :
    IsLongest (fun w => ∀ c ∈ w, p c = true) (cs.takeWhile p) cs where
  mem := List.all_eq_true.mp List.all_takeWhile
  begins := List.takeWhile_prefix p
  longest v hv := by
    rintro ⟨after, rfl⟩
    rw [List.takeWhile_append_of_pos hv, List.length_append]
    exact Nat.le_add_right _ _

/-- Every text is a run of characters of one kind and what stands behind it. -/
theorem exists_run_append (p : Char → Bool) (cs : List Char) : ∃ run r, cs = run ++ r ∧
    (∀ c ∈ run, p c = true) ∧ ∀ c, r.head? = some c → p c = false :=
  ⟨cs.takeWhile p, cs.dropWhile p, List.takeWhile_append_dropWhile.symm,
    List.all_eq_true.mp List.all_takeWhile, fun _ hc => eq_false_of_head?_dropWhile hc⟩

/-- A run of the characters that a word is made of. -/
def IsRun (w : List Char) : Prop :=
  ∀ c ∈ w, isAlphanumeric c = true

theorem IsRun.isBlank_of_mem {w : List Char} (h : IsRun w) : ∀ c ∈ w, isBlank c = false :=
  fun c hc => isBlank_of_isAlphanumeric (h c hc)

/-! ### Numbers -/

/-- One or more digits. -/
def IsDigits (ds : List Char) : Prop :=
  ds ≠ [] ∧ ∀ c ∈ ds, isDigit c = true

/-- Digits, and behind a point more of them. -/
inductive IsDecimal : List Char → Prop
  | whole {ds : List Char} : IsDigits ds → IsDecimal ds
  | point {ds places : List Char} :
      IsDigits ds → IsDigits places → IsDecimal (ds ++ '.' :: places)

/-- A number as it is written, with a sign in front where one is allowed. -/
inductive IsNumeral (signAllowed : Prop) : List Char → Prop
  | plain {cs : List Char} : IsDecimal cs → IsNumeral signAllowed cs
  | signed {c : Char} {cs : List Char} :
      signAllowed → c = '+' ∨ c = '-' → IsDecimal cs → IsNumeral signAllowed (c :: cs)

/-- The decimal part is a point and the digits behind it, or there is none. -/
theorem decimals_cases (cs : List Char) :
    (∃ places r, cs = '.' :: (places ++ r) ∧ IsDigits places ∧
      (∀ c, r.head? = some c → isDigit c = false) ∧ decimals cs = places.length + 1) ∨
    ((∀ places, IsDigits places → ¬('.' :: places <+: cs)) ∧ decimals cs = 0) := by
  unfold decimals
  split
  · rename_i r
    obtain ⟨places, r, rfl, hplaces, hr⟩ := exists_run_append isDigit r
    simp only [takeWhile_exact hplaces hr]
    cases places with
    | nil =>
      refine .inr ⟨?_, rfl⟩
      rintro places ⟨hne, hdigits⟩ hbegins
      rw [List.cons_prefix_cons] at hbegins
      obtain ⟨c, places, rfl⟩ := List.exists_cons_of_ne_nil hne
      obtain ⟨more, hmore⟩ := hbegins.2
      have hc := hr c (by rw [List.nil_append] at hmore; rw [← hmore]; rfl)
      rw [hdigits c List.mem_cons_self] at hc
      cases hc
    | cons c places =>
      exact .inl ⟨c :: places, r, rfl, ⟨List.cons_ne_nil _ _, hplaces⟩, hr, rfl⟩
  · rename_i hpoint
    refine .inr ⟨?_, rfl⟩
    rintro places - ⟨more, hmore⟩
    exact hpoint (places ++ more) hmore.symm

theorem IsDecimal.exists_cons {cs : List Char} (h : IsDecimal cs) :
    ∃ c r, cs = c :: r ∧ isDigit c = true := by
  cases h with
  | whole hds =>
    obtain ⟨c, ds, rfl⟩ := List.exists_cons_of_ne_nil hds.1
    exact ⟨c, ds, rfl, hds.2 c List.mem_cons_self⟩
  | @point _ places hds _ =>
    obtain ⟨c, ds, rfl⟩ := List.exists_cons_of_ne_nil hds.1
    exact ⟨c, ds ++ '.' :: places, rfl, hds.2 c List.mem_cons_self⟩

/-- A decimal at the front of a text holds the whole part of it, or some of it. -/
theorem IsDecimal.of_begins {v ds r : List Char} (hv : IsDecimal v)
    (hds : ∀ c ∈ ds, isDigit c = true) (hr : ∀ c, r.head? = some c → isDigit c = false)
    (h : v <+: ds ++ r) :
    v.length ≤ ds.length ∨ ∃ places, IsDigits places ∧ v = ds ++ '.' :: places ∧
      '.' :: places <+: r := by
  cases hv with
  | whole hv =>
    left
    have hlongest := (isLongest_takeWhile isDigit (ds ++ r)).longest v hv.2 h
    rwa [takeWhile_exact hds hr] at hlongest
  | @point whole places hwhole hplaces =>
    right
    obtain ⟨more, hmore⟩ := h
    rw [List.append_assoc] at hmore
    have hrun : (whole ++ ('.' :: places ++ more)).takeWhile isDigit = whole := by
      apply takeWhile_exact hwhole.2
      rintro c ⟨⟩
      rfl
    rw [hmore, takeWhile_exact hds hr] at hrun
    subst hrun
    exact ⟨places, hplaces, rfl, more, List.append_cancel_left hmore⟩

theorem digits_cons {c : Char} (h : isDigit c = true) (cs : List Char) :
    digits (c :: cs) = digits cs + 1 := by
  simp only [digits, List.takeWhile_cons, List.dropWhile_cons, h, if_true, List.length_cons]
  omega

/-- Digits and a decimal part make the longest decimal. -/
theorem isLongest_take_digits {cs : List Char} (h : ∃ c ∈ cs.head?, isDigit c = true) :
    IsLongest IsDecimal (cs.take (digits cs)) cs := by
  obtain ⟨ds, r, rfl, hds, hr⟩ := exists_run_append isDigit cs
  have hwhole : IsDigits ds := by
    refine ⟨?_, hds⟩
    rintro rfl
    obtain ⟨c, hc, hdigit⟩ := h
    rw [hr c hc] at hdigit
    cases hdigit
  have hlength : digits (ds ++ r) = ds.length + decimals r := by
    rw [digits, takeWhile_exact hds hr, dropWhile_exact hds hr]
  rw [hlength, List.take_length_add_append]
  rcases decimals_cases r with ⟨places, r, rfl, hplaces, hr', hcount⟩ | ⟨hnone, hcount⟩
  · have htake : ('.' :: (places ++ r)).take (places.length + 1) = '.' :: places := by simp
    rw [hcount, htake]
    refine ⟨.point hwhole hplaces, ⟨r, by simp⟩, fun v hv hbegins => ?_⟩
    -- A decimal with a point in it has no more places than there are digits behind the point.
    rcases hv.of_begins hds hr hbegins with hle | ⟨ps, hps, rfl, hpoint⟩
    · rw [List.length_append]
      omega
    · have hle := (isLongest_takeWhile isDigit (places ++ r)).longest ps hps.2
        (List.cons_prefix_cons.mp hpoint).2
      rw [takeWhile_exact hplaces.2 hr'] at hle
      simpa using hle
  · rw [hcount, List.take_zero, List.append_nil]
    refine ⟨.whole hwhole, List.prefix_append ds r, fun v hv hbegins => ?_⟩
    rcases hv.of_begins hds hr hbegins with hle | ⟨places, hplaces, -, hpoint⟩
    · exact hle
    · exact absurd hpoint (hnone places hplaces)

/-- A numeral begins with a digit, or with a sign and a digit. -/
theorem IsNumeral.exists_cons {signAllowed : Prop} {w : List Char}
    (h : IsNumeral signAllowed w) : ∃ c r, w = c :: r ∧
      (isDigit c = true ∨ signAllowed ∧ (c = '+' ∨ c = '-') ∧ ∃ d ∈ r.head?, isDigit d = true) := by
  cases h with
  | plain hcs =>
    obtain ⟨c, r, rfl, hc⟩ := hcs.exists_cons
    exact ⟨c, r, rfl, .inl hc⟩
  | @signed c cs hallowed hc hcs =>
    obtain ⟨d, r, rfl, hd⟩ := hcs.exists_cons
    exact ⟨c, d :: r, rfl, .inr ⟨hallowed, hc, d, rfl, hd⟩⟩

theorem IsDecimal.isBlank_of_mem {cs : List Char} (h : IsDecimal cs) :
    ∀ c ∈ cs, isBlank c = false := by
  cases h with
  | whole hds => exact fun c hc => isBlank_of_isDigit (hds.2 c hc)
  | point hds hplaces =>
    rw [List.forall_mem_append, List.forall_mem_cons]
    exact ⟨fun c hc => isBlank_of_isDigit (hds.2 c hc), rfl,
      fun c hc => isBlank_of_isDigit (hplaces.2 c hc)⟩

theorem IsNumeral.isBlank_of_mem {signAllowed : Prop} {w : List Char}
    (h : IsNumeral signAllowed w) : ∀ c ∈ w, isBlank c = false := by
  cases h with
  | plain hcs => exact hcs.isBlank_of_mem
  | signed _ hsign hcs =>
    refine List.forall_mem_cons.mpr ⟨?_, hcs.isBlank_of_mem⟩
    rcases hsign with rfl | rfl <;> rfl

/-- A decimal is written in ASCII. -/
theorem IsDecimal.lt_of_mem {cs : List Char} (h : IsDecimal cs) : ∀ c ∈ cs, c.toNat < 128 := by
  have hdigit {c : Char} (hc : isDigit c = true) : c.toNat < 128 := by
    have := (toNat_of_isDigit hc).2
    omega
  cases h with
  | whole hds => exact fun c hc => hdigit (hds.2 c hc)
  | point hds hplaces =>
    rw [List.forall_mem_append, List.forall_mem_cons]
    exact ⟨fun c hc => hdigit (hds.2 c hc), by decide, fun c hc => hdigit (hplaces.2 c hc)⟩

/-- So is a numeral. -/
theorem IsNumeral.lt_of_mem {signAllowed : Prop} {w : List Char}
    (h : IsNumeral signAllowed w) : ∀ c ∈ w, c.toNat < 128 := by
  cases h with
  | plain hcs => exact hcs.lt_of_mem
  | signed _ hsign hcs =>
    refine List.forall_mem_cons.mpr ⟨?_, hcs.lt_of_mem⟩
    rcases hsign with rfl | rfl <;> decide

/-- A sign is no digit. -/
theorem isDigit_of_sign {c : Char} (h : c = '+' ∨ c = '-') : isDigit c = false := by
  rcases h with rfl | rfl <;> rfl

/-- Behind a digit the longest numeral is the longest decimal. -/
theorem isLongest_of_digit (signAllowed : Prop) {c : Char} (hc : isDigit c = true)
    (cs : List Char) : IsLongest (IsNumeral signAllowed) (c :: cs.take (digits cs)) (c :: cs) := by
  have hdecimal : IsLongest IsDecimal (c :: cs.take (digits cs)) (c :: cs) := by
    have hhead : ∃ d ∈ (c :: cs).head?, isDigit d = true := ⟨c, rfl, hc⟩
    have htake := isLongest_take_digits hhead
    rwa [digits_cons hc, List.take_succ_cons] at htake
  refine ⟨.plain hdecimal.mem, hdecimal.begins, fun v hv hbegins => ?_⟩
  cases hv with
  | plain hv => exact hdecimal.longest v hv hbegins
  | signed _ hsign _ =>
    obtain ⟨rfl, -⟩ := List.cons_prefix_cons.mp hbegins
    rw [isDigit_of_sign hsign] at hc
    cases hc

/-- Behind a sign it is the sign and the longest decimal. -/
theorem isLongest_of_sign {signAllowed : Prop} (hallowed : signAllowed) {c : Char}
    (hc : c = '+' ∨ c = '-') {cs : List Char} (hcs : ∃ d ∈ cs.head?, isDigit d = true) :
    IsLongest (IsNumeral signAllowed) (c :: cs.take (digits cs)) (c :: cs) := by
  have hdecimal := isLongest_take_digits hcs
  refine ⟨.signed hallowed hc hdecimal.mem, List.cons_prefix_cons.mpr ⟨rfl, hdecimal.begins⟩,
    fun v hv hbegins => ?_⟩
  cases hv with
  | plain hv =>
    obtain ⟨d, r, rfl, hd⟩ := hv.exists_cons
    obtain ⟨rfl, -⟩ := List.cons_prefix_cons.mp hbegins
    rw [isDigit_of_sign hc] at hd
    cases hd
  | signed _ _ hv =>
    have hle := hdecimal.longest _ hv (List.cons_prefix_cons.mp hbegins).2
    rw [List.length_cons, List.length_cons]
    omega

/-- Either the longest numeral is found, or there is none. -/
theorem number?_cases (signAllowed : Bool) (c : Char) (cs : List Char) :
    (∃ n, number? signAllowed c cs = some n ∧
      IsLongest (IsNumeral (signAllowed = true)) (c :: cs.take n) (c :: cs)) ∨
    (number? signAllowed c cs = none ∧
      ∀ w, IsNumeral (signAllowed = true) w → ¬w <+: c :: cs) := by
  rw [number?]
  split
  · rename_i hnumber
    refine .inl ⟨digits cs, rfl, ?_⟩
    simp only [Bool.or_eq_true, Bool.and_eq_true, decide_eq_true_eq,
      Option.any_eq_true] at hnumber
    rcases hnumber with hdigit | ⟨⟨hallowed, hsign⟩, hdigit⟩
    · exact isLongest_of_digit _ hdigit cs
    · exact isLongest_of_sign hallowed hsign hdigit
  -- A numeral would begin with what the test asks for.
  · rename_i hnumber
    refine .inr ⟨rfl, ?_⟩
    rintro w hw ⟨more, hmore⟩
    obtain ⟨d, r, rfl, hd⟩ := hw.exists_cons
    obtain ⟨rfl, rfl⟩ := List.cons.inj hmore
    apply hnumber
    rcases hd with hdigit | ⟨hallowed, hsign, e, he, hdigit⟩
    · rw [hdigit]
      rfl
    · have hhead : (r ++ more).head? = some e := by
        rw [List.head?_append, he]
        rfl
      simp [hallowed, hsign, hhead, hdigit]

/-! ### Literals -/

/-- The inside of a literal up to a point where it is still open: no double quote and no line feed
in it but behind a backslash, and no backslash at the end that waits for its character. -/
inductive IsOpen : List Char → Prop
  | nil : IsOpen []
  | plain {c : Char} {cs : List Char} :
      c ≠ '"' → c ≠ '\n' → c ≠ '\\' → IsOpen cs → IsOpen (c :: cs)
  | escaped (c : Char) {cs : List Char} : IsOpen cs → IsOpen ('\\' :: c :: cs)

/-- Where a literal ends, with the text behind its opening quote cut in two. -/
inductive EndsLiteral : List Char → List Char → Prop
  /-- Just behind the closing quote. -/
  | closed {cs : List Char} (after : List Char) : IsOpen cs → EndsLiteral (cs ++ ['"']) after
  /-- In front of a line feed. -/
  | line {cs : List Char} (after : List Char) : IsOpen cs → EndsLiteral cs ('\n' :: after)
  /-- With the text. -/
  | text {cs : List Char} : IsOpen cs → EndsLiteral cs []
  /-- With a text whose last character is a backslash. -/
  | pending {cs : List Char} : IsOpen cs → EndsLiteral (cs ++ ['\\']) []

theorem EndsLiteral.plain {c : Char} {body after : List Char} (hquote : c ≠ '"')
    (hline : c ≠ '\n') (hescape : c ≠ '\\') (h : EndsLiteral body after) :
    EndsLiteral (c :: body) after := by
  cases h with
  | closed after hopen => exact .closed after (.plain hquote hline hescape hopen)
  | line after hopen => exact .line after (.plain hquote hline hescape hopen)
  | text hopen => exact .text (.plain hquote hline hescape hopen)
  | pending hopen => exact .pending (.plain hquote hline hescape hopen)

theorem EndsLiteral.escaped (c : Char) {body after : List Char} (h : EndsLiteral body after) :
    EndsLiteral ('\\' :: c :: body) after := by
  cases h with
  | closed after hopen => exact .closed after (.escaped c hopen)
  | line after hopen => exact .line after (.escaped c hopen)
  | text hopen => exact .text (.escaped c hopen)
  | pending hopen => exact .pending (.escaped c hopen)

/-- What is open is passed over. -/
theorem literal_open {cs : List Char} (h : IsOpen cs) (r : List Char) :
    literal (cs ++ r) = cs.length + literal r := by
  induction h with
  | nil => rw [List.nil_append, List.length_nil, Nat.zero_add]
  | plain hquote hline hescape _ ih =>
    rw [List.cons_append, literal, ih, List.length_cons]
    · omega
    · exact hquote
    · exact hline
    · exact fun hc _ => hescape hc
    · exact fun _ _ hc _ => hescape hc
  | escaped c _ ih =>
    rw [List.cons_append, List.cons_append, literal, ih, List.length_cons, List.length_cons]
    omega

/-- A literal ends where `literal` says. -/
theorem literal_iff {body after : List Char} :
    literal (body ++ after) = body.length ↔ EndsLiteral body after := by
  constructor
  · intro h
    have hends : ∀ cs : List Char, EndsLiteral (cs.take (literal cs)) (cs.drop (literal cs)) := by
      intro cs
      fun_induction literal cs with
      | case1 => exact .text .nil
      | case2 r => exact .closed r .nil
      | case3 r => exact .line r .nil
      | case4 => exact .pending .nil
      | case5 c r ih => exact ih.escaped c
      | case6 c r hquote hline hlast hescape ih =>
        refine ih.plain hquote hline ?_
        rintro rfl
        cases r with
        | nil => exact hlast rfl rfl
        | cons d r => exact hescape d r rfl rfl
    have hbody := hends (body ++ after)
    rwa [h, List.take_left, List.drop_left] at hbody
  · intro h
    cases h with
    | closed after hopen =>
      rw [List.append_assoc, literal_open hopen, List.length_append]
      rfl
    | line after hopen => rw [literal_open hopen]; rfl
    | text hopen => rw [literal_open hopen]; rfl
    | pending hopen =>
      rw [List.append_nil, literal_open hopen, List.length_append]
      rfl

/-! ### Any token -/

/-- A token with its class, by its characters and what follows them. -/
inductive Reads (keywords : List String) (signAllowed : Prop) :
    List Char → List Char → TokenKind → Prop
  | keyword {c : Char} {w after : List Char} : isAlphabetic c = true →
      IsLongest IsRun (c :: w) (c :: w ++ after) → String.ofList (c :: w) ∈ keywords →
      Reads keywords signAllowed (c :: w) after .keyword
  | identifier {c : Char} {w after : List Char} : isAlphabetic c = true →
      IsLongest IsRun (c :: w) (c :: w ++ after) → String.ofList (c :: w) ∉ keywords →
      Reads keywords signAllowed (c :: w) after .identifier
  | numeric {w after : List Char} :
      IsLongest (IsNumeral signAllowed) w (w ++ after) → Reads keywords signAllowed w after .numeric
  | literal {body after : List Char} :
      EndsLiteral body after → Reads keywords signAllowed ('"' :: body) after .literal
  | symbol {c : Char} {after : List Char} : isBlank c = false → isAlphabetic c = false → c ≠ '"' →
      (∀ w, IsNumeral signAllowed w → ¬w <+: c :: after) →
      Reads keywords signAllowed [c] after .symbol

variable {keywords : List String}

/-- What begins like a number begins with neither a letter nor a quote nor a blank. -/
theorem IsNumeral.first {signAllowed : Prop} {v : List Char} (h : IsNumeral signAllowed v)
    {c : Char} {cs : List Char} (hbegins : v <+: c :: cs) :
    isAlphabetic c = false ∧ c ≠ '"' ∧ isBlank c = false := by
  obtain ⟨d, r, rfl, hd⟩ := h.exists_cons
  obtain ⟨rfl, -⟩ := List.cons_prefix_cons.mp hbegins
  rcases hd with hdigit | ⟨-, rfl | rfl, -⟩
  · refine ⟨isAlphabetic_of_isDigit hdigit, ?_, isBlank_of_isDigit hdigit⟩
    rintro rfl
    cases hdigit
  · decide +kernel
  · decide +kernel

/-- A token begins with a character that is no blank. -/
theorem Reads.exists_cons {signAllowed : Prop} {w after : List Char} {kind : TokenKind}
    (h : Reads keywords signAllowed w after kind) : ∃ c r, w = c :: r ∧ isBlank c = false := by
  cases h with
  | keyword hc _ _ | identifier hc _ _ =>
    exact ⟨_, _, rfl, isBlank_of_isAlphanumeric (isAlphanumeric_of_isAlphabetic hc)⟩
  | numeric hw =>
    obtain ⟨c, r, rfl, -⟩ := hw.mem.exists_cons
    exact ⟨c, r, rfl, (hw.mem.first hw.begins).2.2⟩
  | literal _ => exact ⟨_, _, rfl, rfl⟩
  | symbol hc _ _ _ => exact ⟨_, _, rfl, hc⟩

/-- Only a literal may hold blanks. -/
theorem Reads.isBlank_of_mem {signAllowed : Prop} {w after : List Char} {kind : TokenKind}
    (h : Reads keywords signAllowed w after kind) (hkind : kind ≠ .literal) :
    ∀ c ∈ w, isBlank c = false := by
  cases h with
  | keyword _ hw _ | identifier _ hw _ => exact hw.mem.isBlank_of_mem
  | numeric hw => exact hw.mem.isBlank_of_mem
  | literal _ => exact absurd rfl hkind
  | symbol hc _ _ _ => exact List.forall_mem_singleton.mpr hc

theorem Reads.endsLiteral {signAllowed : Prop} {body after : List Char}
    (h : Reads keywords signAllowed ('"' :: body) after .literal) : EndsLiteral body after := by
  cases h with
  | literal hends => exact hends

theorem isAlphabetic_quote : isAlphabetic '"' = false := by
  decide +kernel

/-- What `extent` finds is a token. -/
theorem reads_extent (keywords : List String) (signAllowed : Bool) {c : Char}
    (hc : isBlank c = false) (cs : List Char) :
    Reads keywords (signAllowed = true) (c :: cs.take (extent keywords signAllowed c cs).2)
      (cs.drop (extent keywords signAllowed c cs).2) (extent keywords signAllowed c cs).1 := by
  rw [extent]
  split
  · rename_i hletter
    obtain ⟨run, r, rfl, hrun, hr⟩ := exists_run_append isAlphanumeric cs
    have hlongest : IsLongest IsRun (c :: run) (c :: run ++ r) := by
      have htake := isLongest_takeWhile isAlphanumeric (c :: run ++ r)
      rwa [takeWhile_exact
        (List.forall_mem_cons.mpr ⟨isAlphanumeric_of_isAlphabetic hletter, hrun⟩) hr] at htake
    dsimp only
    rw [takeWhile_exact hrun hr, List.take_left, List.drop_left]
    split
    · rename_i hmem
      exact .keyword hletter hlongest (List.contains_iff_mem.mp hmem)
    · rename_i hmem
      exact .identifier hletter hlongest fun h => hmem (List.contains_iff_mem.mpr h)
  · rename_i hletter
    rcases number?_cases signAllowed c cs with ⟨n, hn, hlongest⟩ | ⟨hn, hnone⟩
    · rw [hn]
      refine .numeric ?_
      rwa [List.cons_append, List.take_append_drop]
    · rw [hn]
      dsimp only
      split
      · rename_i hquote
        subst hquote
        refine .literal (literal_iff.mp ?_)
        rw [List.take_append_drop, List.length_take, Nat.min_eq_left (literal_le_length cs)]
      · rename_i hquote
        exact .symbol hc (Bool.eq_false_iff.mpr hletter) hquote hnone

/-- A token is what `extent` finds. -/
theorem extent_of_reads {signAllowed : Bool} {c : Char} {w after : List Char} {kind : TokenKind}
    (h : Reads keywords (signAllowed = true) (c :: w) after kind) :
    extent keywords signAllowed c (w ++ after) = (kind, w.length) := by
  have hword (hletter : isAlphabetic c = true) (hw : IsLongest IsRun (c :: w) (c :: w ++ after)) :
      extent keywords signAllowed c (w ++ after) =
        (if keywords.contains (String.ofList (c :: w)) then .keyword else .identifier,
          w.length) := by
    have htake := hw.unique (isLongest_takeWhile isAlphanumeric (c :: w ++ after))
    rw [List.cons_append, List.takeWhile_cons,
      if_pos (isAlphanumeric_of_isAlphabetic hletter)] at htake
    rw [extent, if_pos hletter, ← (List.cons.inj htake).2]
  cases h with
  | keyword hletter hw hmem =>
    rw [hword hletter hw, if_pos (List.contains_iff_mem.mpr hmem)]
  | identifier hletter hw hmem =>
    rw [hword hletter hw, if_neg fun h => hmem (List.contains_iff_mem.mp h)]
  | numeric hw =>
    rcases number?_cases signAllowed c (w ++ after) with ⟨n, hn, hlongest⟩ | ⟨-, hnone⟩
    · have hextent : extent keywords signAllowed c (w ++ after) = (.numeric, n) := by
        rw [extent, (hw.mem.first hw.begins).1, hn]
        rfl
      have hle := extent_le_length keywords signAllowed c (w ++ after)
      have hlength := congrArg List.length (List.cons.inj (hw.unique hlongest)).2
      rw [hextent] at hle
      rw [List.length_take, Nat.min_eq_left hle] at hlength
      rw [hextent, hlength]
    · exact absurd hw.begins (hnone (c :: w) hw.mem)
  | literal hends =>
    rcases number?_cases signAllowed '"' (w ++ after) with ⟨n, _, hlongest⟩ | ⟨hn, -⟩
    · exact absurd rfl (hlongest.mem.first hlongest.begins).2.1
    · rw [extent, isAlphabetic_quote, hn, literal_iff.mpr hends]
      rfl
  | symbol _ hletter hquote hnumeral =>
    rcases number?_cases signAllowed c after with ⟨n, _, hlongest⟩ | ⟨hn, -⟩
    · exact absurd hlongest.begins (hnumeral _ hlongest.mem)
    · rw [extent, hletter, List.nil_append, hn]
      simp [hquote]

end InputScript.Token
