import InputScript.Source

/-!
# `InputScript.Proofs.Source.Spelling`: the readers of a line, one text at a time

`Spells` is the grammar that the reader of parameters accepts, without its recursion: what a
text has to look like to hold a list of items. `items_iff` says that the reader finds exactly
these items. The reader of comments goes over the same texts with rules of its own, so it gets
a lemma for each kind of text: a body between quotes, a word without blanks, a gap.

* `trimEnd_append_cons`, `exists_trim_eq`, `Trimmed`: what trimming leaves.
* `closing_iff`, `items_iff`: the two halves of the reader of parameters.
* `beforeComment_body`, `beforeComment_word`: the reader of comments. A word may hold double
  quotes, and `quoteMarks` counts those that this reader takes for quotes.
* `read_eq`: reading a line, one reader after the other.
-/

set_option autoImplicit false

namespace InputScript

open Text

/-! ### Blanks and trimming -/

/-- A text of blanks only. -/
def IsGap (cs : List Char) : Prop :=
  ∀ c ∈ cs, isBlank c = true

instance (cs : List Char) : Decidable (IsGap cs) :=
  decidable_of_iff (cs.all isBlank = true) List.all_eq_true

/-- What may follow a word: nothing, or a text that begins with a blank. -/
def AtBlank (cs : List Char) : Prop :=
  ∀ c, cs.head? = some c → isBlank c = true

/-- A text without a blank at either end. -/
structure Trimmed (cs : List Char) : Prop where
  first : ∀ c, cs.head? = some c → isBlank c = false
  last : ∀ c, cs.getLast? = some c → isBlank c = false

theorem Trimmed.trim_eq {cs : List Char} (h : Trimmed cs) : trim cs = cs :=
  trim_eq_self h.first h.last

theorem Trimmed.trimStart_append {cs : List Char} (h : Trimmed cs) (hne : cs ≠ [])
    (ds : List Char) : trimStart (cs ++ ds) = cs ++ ds := by
  obtain ⟨c, cs, rfl⟩ := List.exists_cons_of_ne_nil hne
  rw [trimStart, List.cons_append, List.dropWhile_cons, h.first c rfl]
  rfl

theorem Trimmed.trimEnd_eq {cs : List Char} (h : Trimmed cs) : trimEnd cs = cs := by
  cases cs with
  | nil => rfl
  | cons c cs =>
    have htrim := h.trim_eq
    rwa [trim, ← List.append_nil (c :: cs), h.trimStart_append (List.cons_ne_nil c cs),
      List.append_nil] at htrim

theorem atBlank_nil : AtBlank [] := by
  intro c hc
  cases hc

theorem atBlank_cons {c : Char} (h : isBlank c = true) (cs : List Char) : AtBlank (c :: cs) := by
  intro d hd
  cases hd
  exact h

theorem IsGap.atBlank {gap : List Char} (h : IsGap gap) : AtBlank gap := by
  intro c hc
  exact h c (List.mem_of_mem_head? hc)

/-- A gap with something in it is followed by what it likes. -/
theorem IsGap.atBlank_append {gap : List Char} (h : IsGap gap) (hne : gap ≠ []) (cs : List Char) :
    AtBlank (gap ++ cs) := by
  obtain ⟨c, gap, rfl⟩ := List.exists_cons_of_ne_nil hne
  exact atBlank_cons (h c List.mem_cons_self) (gap ++ cs)

/-- What begins with a blank still does with more behind it. -/
theorem AtBlank.append {cs ds : List Char} (h : AtBlank cs) (hd : AtBlank ds) :
    AtBlank (cs ++ ds) := by
  cases cs with
  | nil => exact hd
  | cons c cs => exact atBlank_cons (h c rfl) (cs ++ ds)

theorem IsGap.dropWhile_append {gap : List Char} (h : IsGap gap) (cs : List Char) :
    (gap ++ cs).dropWhile isBlank = cs.dropWhile isBlank :=
  List.dropWhile_append_of_pos h

theorem IsGap.trimStart_append {gap : List Char} (h : IsGap gap) (cs : List Char) :
    trimStart (gap ++ cs) = trimStart cs :=
  h.dropWhile_append cs

theorem IsGap.trimEnd_append {gap : List Char} (h : IsGap gap) (cs : List Char) :
    trimEnd (cs ++ gap) = trimEnd cs := by
  have hrev : IsGap gap.reverse := by
    intro c hc
    exact h c (List.mem_reverse.mp hc)
  rw [trimEnd, List.reverse_append, hrev.dropWhile_append]
  rfl

theorem IsGap.trim_append {gap : List Char} (h : IsGap gap) {cs : List Char} (hcs : Trimmed cs) :
    trim (cs ++ gap) = cs := by
  cases cs with
  | nil =>
    rw [trim, List.nil_append, ← List.append_nil gap, h.trimStart_append]
    rfl
  | cons c cs =>
    rw [trim, hcs.trimStart_append (List.cons_ne_nil c cs), h.trimEnd_append, hcs.trimEnd_eq]

/-- Trimming at the end goes no further than the last character that is no blank. -/
theorem trimEnd_append_cons {c : Char} (h : isBlank c = false) (cs ds : List Char) :
    trimEnd (cs ++ c :: ds) = cs ++ c :: trimEnd ds := by
  have hstop : (c :: cs.reverse).dropWhile isBlank = c :: cs.reverse := by
    rw [List.dropWhile_cons, h]
    rfl
  have hrev : (cs ++ c :: ds).reverse = ds.reverse ++ c :: cs.reverse := by simp
  rw [trimEnd, trimEnd, hrev, List.dropWhile_append, hstop]
  split
  · rename_i hempty
    rw [List.isEmpty_iff.mp hempty]
    simp
  · simp

/-- Trimming a text that goes on behind its last gap. -/
theorem Trimmed.trim_append_cons {core : List Char} (hcore : Trimmed core) (hne : core ≠ [])
    {lead : List Char} (hlead : IsGap lead) {c : Char} (hc : isBlank c = false)
    (gap text : List Char) :
    trim (lead ++ (core ++ (gap ++ c :: text))) = core ++ (gap ++ c :: trimEnd text) := by
  rw [trim, hlead.trimStart_append, hcore.trimStart_append hne, ← List.append_assoc,
    trimEnd_append_cons hc, List.append_assoc]

/-- Every text is what trimming leaves of it, between two gaps. -/
theorem exists_trim_eq (cs : List Char) :
    ∃ before after, IsGap before ∧ IsGap after ∧ cs = before ++ trim cs ++ after := by
  refine ⟨cs.takeWhile isBlank, ((trimStart cs).reverse.takeWhile isBlank).reverse, ?_, ?_, ?_⟩
  · exact List.all_eq_true.mp List.all_takeWhile
  · intro c hc
    exact List.all_eq_true.mp List.all_takeWhile c (List.mem_reverse.mp hc)
  · have hend : trim cs ++ ((trimStart cs).reverse.takeWhile isBlank).reverse = trimStart cs := by
      rw [trim, trimEnd, ← List.reverse_append, List.takeWhile_append_dropWhile,
        List.reverse_reverse]
    rw [List.append_assoc, hend]
    exact List.takeWhile_append_dropWhile.symm

/-- What is cut off at the end leaves the first character in its place. -/
theorem head?_of_isPrefix {cs ds : List Char} (h : cs <+: ds) {c : Char} (hc : cs.head? = some c) :
    ds.head? = some c := by
  obtain ⟨after, rfl⟩ := h
  rw [List.head?_append, hc]
  rfl

theorem trimEnd_isPrefix (cs : List Char) : trimEnd cs <+: cs := by
  rw [trimEnd, ← List.reverse_suffix, List.reverse_reverse]
  exact List.dropWhile_suffix isBlank

/-- Trimming leaves no blank at either end. -/
theorem trimmed_trim (cs : List Char) : Trimmed (trim cs) := by
  constructor
  · intro c hc
    exact isBlank_of_head?_trimStart (head?_of_isPrefix (trimEnd_isPrefix (trimStart cs)) hc)
  · intro c hc
    rw [trim, trimEnd, List.getLast?_reverse] at hc
    exact isBlank_of_head?_trimStart hc

/-- Blanks around a text do not change what trimming leaves. -/
theorem trim_pad {before after : List Char} (hbefore : IsGap before) (hafter : IsGap after)
    (cs : List Char) : trim (before ++ cs ++ after) = trim cs := by
  obtain ⟨front, back, hfront, hback, hsplit⟩ := exists_trim_eq cs
  have hgap {first second : List Char} (h : IsGap first) (h' : IsGap second) :
      IsGap (first ++ second) := List.forall_mem_append.mpr ⟨h, h'⟩
  calc
    trim (before ++ cs ++ after) =
        trim ((before ++ front) ++ (trim cs ++ (back ++ after))) := by
      conv => lhs; rw [hsplit]
      simp only [List.append_assoc]
    _ = trim (trim cs ++ (back ++ after)) := by
      rw [trim, (hgap hbefore hfront).trimStart_append]
      rfl
    _ = trim cs := (hgap hback hafter).trim_append (trimmed_trim cs)

/-- Nothing is left of blanks. -/
theorem IsGap.trim_eq_nil {gap : List Char} (h : IsGap gap) : trim gap = [] := by
  calc
    trim gap = trim (gap ++ [] ++ []) := by simp only [List.append_nil]
    _ = trim [] := trim_pad h (List.forall_mem_nil _) []
    _ = [] := rfl

/-! ### What stands between two double quotes -/

namespace Item

/-- What may stand between two double quotes: each double quote in it, and each backslash, is
a character that a backslash takes as it is. -/
inductive IsBody : List Char → Prop
  | nil : IsBody []
  | escaped (c : Char) {body : List Char} : IsBody body → IsBody ('\\' :: c :: body)
  | plain {c : Char} {body : List Char} :
      c ≠ '\\' → c ≠ '"' → IsBody body → IsBody (c :: body)

/-- Before a character that is neither an escape nor a quote, nothing changes. -/
theorem closing_cons {c : Char} (hescape : c ≠ '\\') (hquote : c ≠ '"') (cs : List Char) :
    closing (c :: cs) = (closing cs).map fun (body, rest) => (c :: body, rest) := by
  rw [closing]
  · exact hquote
  · exact fun h _ => hescape h
  · exact fun _ _ h => absurd h hescape

/-- The quotation ends behind its body. -/
theorem closing_body {body : List Char} (h : IsBody body) (rest : List Char) :
    closing (body ++ '"' :: rest) = some (body, rest) := by
  induction h with
  | nil => rfl
  | escaped c _ ih => rw [List.cons_append, List.cons_append, closing, ih, Option.map_some]
  | plain hescape hquote _ ih =>
    rw [List.cons_append, closing_cons hescape hquote, ih, Option.map_some]

/-- A quotation ends at the first double quote behind a body. -/
theorem closing_iff {cs body rest : List Char} :
    closing cs = some (body, rest) ↔ IsBody body ∧ cs = body ++ '"' :: rest := by
  constructor
  · intro h
    fun_induction closing cs generalizing body rest with
    | case1 => cases h
    | case2 r =>
      cases h
      exact ⟨.nil, rfl⟩
    | case3 => cases h
    | case4 c r ih =>
      obtain ⟨⟨body', rest'⟩, hr, heq⟩ := Option.map_eq_some_iff.mp h
      cases heq
      obtain ⟨hbody, rfl⟩ := ih hr
      exact ⟨.escaped c hbody, rfl⟩
    | case5 c r hquote hlast hescape ih =>
      obtain ⟨⟨body', rest'⟩, hr, heq⟩ := Option.map_eq_some_iff.mp h
      cases heq
      obtain ⟨hbody, rfl⟩ := ih hr
      refine ⟨.plain ?_ hquote hbody, rfl⟩
      rintro rfl
      -- The body is followed by a quote, so the backslash is not the last character.
      cases hrest : body' ++ '"' :: rest with
      | nil => simp at hrest
      | cons d ds => exact hescape d ds rfl hrest
  · rintro ⟨hbody, rfl⟩
    exact closing_body hbody rest

/-- A parameter without quotes: it holds no blank and does not begin with a double quote. -/
structure IsBare (text : List Char) : Prop where
  ne_nil : text ≠ []
  noBlank : ∀ c ∈ text, isBlank c = false
  noQuote : text.head? ≠ some '"'

end Item

/-! ### Words and gaps -/

/-- A run of characters ends where the next one is of another kind. -/
theorem takeWhile_exact {p : Char → Bool} {run r : List Char} (hrun : ∀ c ∈ run, p c = true)
    (hr : ∀ c, r.head? = some c → p c = false) : (run ++ r).takeWhile p = run := by
  rw [List.takeWhile_append_of_pos hrun]
  cases r with
  | nil => exact List.append_nil run
  | cons c r => simp [hr c rfl]

/-- Behind a run of characters stands what is left. -/
theorem dropWhile_exact {p : Char → Bool} {run r : List Char} (hrun : ∀ c ∈ run, p c = true)
    (hr : ∀ c, r.head? = some c → p c = false) : (run ++ r).dropWhile p = r := by
  rw [List.dropWhile_append_of_pos hrun]
  cases r with
  | nil => rfl
  | cons c r => simp [hr c rfl]

/-- A word ends at the first blank. -/
theorem takeWhile_word {word r : List Char} (hword : ∀ c ∈ word, isBlank c = false)
    (hr : AtBlank r) : (word ++ r).takeWhile (fun c => !isBlank c) = word := by
  apply takeWhile_exact
  · intro c hc
    rw [hword c hc]
    rfl
  · intro c hc
    rw [hr c hc]
    rfl

/-- Behind a word stands what begins with a blank. -/
theorem dropWhile_word {word r : List Char} (hword : ∀ c ∈ word, isBlank c = false)
    (hr : AtBlank r) : (word ++ r).dropWhile (fun c => !isBlank c) = r := by
  apply dropWhile_exact
  · intro c hc
    rw [hword c hc]
    rfl
  · intro c hc
    rw [hr c hc]
    rfl

/-- Behind a run of characters stands one of another kind. -/
theorem eq_false_of_head?_dropWhile {p : Char → Bool} {cs : List Char} {c : Char}
    (hc : (cs.dropWhile p).head? = some c) : p c = false := by
  have h := List.head?_dropWhile_not p cs
  rw [hc] at h
  simpa using h

/-- What stands behind the first word begins with a blank. -/
theorem atBlank_dropWhile (cs : List Char) : AtBlank (cs.dropWhile fun c => !isBlank c) := by
  intro c hc
  simpa using eq_false_of_head?_dropWhile hc

/-! ### The reader of parameters -/

/-- `Spells cs is`: the text `cs` holds the items `is`. Nothing has to stand behind a closing
quote, but a bare parameter goes on to the next blank. -/
inductive Spells : List Char → List Item → Prop
  | nil : Spells [] []
  | blank {c : Char} {cs : List Char} {is : List Item} :
      isBlank c = true → Spells cs is → Spells (c :: cs) is
  | quoted {body cs : List Char} {is : List Item} :
      Item.IsBody body → Spells cs is → Spells ('"' :: (body ++ '"' :: cs)) (.quoted body :: is)
  | bare {text cs : List Char} {is : List Item} :
      Item.IsBare text → AtBlank cs → Spells cs is → Spells (text ++ cs) (.bare text :: is)

theorem items_blank {c : Char} (h : isBlank c = true) (cs : List Char) :
    items (c :: cs) = items cs := by
  rw [items, if_pos h]

theorem items_quoted {body : List Char} (h : Item.IsBody body) (cs : List Char) :
    items ('"' :: (body ++ '"' :: cs)) = (items cs).map (.quoted body :: ·) := by
  have hquote : ¬ isBlank '"' = true := by decide
  have hclosing := Item.closing_body h cs
  rw [items, if_neg hquote, if_pos rfl]
  split
  · rename_i hnone
    rw [hclosing] at hnone
    cases hnone
  · rename_i hsome
    rw [hclosing] at hsome
    cases hsome
    rfl

/-- Without an end of its first item a text has no items. -/
theorem items_unclosed {cs : List Char} (h : Item.closing cs = none) :
    items ('"' :: cs) = none := by
  have hquote : ¬ isBlank '"' = true := by decide
  rw [items, if_neg hquote, if_pos rfl]
  split
  · rfl
  · rename_i hsome
    rw [h] at hsome
    cases hsome

theorem items_bare {text cs : List Char} (h : Item.IsBare text) (hcs : AtBlank cs) :
    items (text ++ cs) = (items cs).map (.bare text :: ·) := by
  obtain ⟨c, text, rfl⟩ := List.exists_cons_of_ne_nil h.ne_nil
  have hblank : ¬ isBlank c = true := by simp [h.noBlank c List.mem_cons_self]
  have hquote : ¬ c = '"' := by
    rintro rfl
    exact h.noQuote rfl
  have hword : ∀ d ∈ text, isBlank d = false := fun d hd => h.noBlank d (List.mem_cons_of_mem c hd)
  rw [List.cons_append, items, if_neg hblank, if_neg hquote, takeWhile_word hword hcs,
    dropWhile_word hword hcs]

/-- What begins with neither a blank nor a double quote begins with a bare parameter. -/
theorem isBare_takeWhile {c : Char} (hblank : ¬ isBlank c = true) (hquote : ¬ c = '"')
    (r : List Char) : Item.IsBare (c :: r.takeWhile fun d => !isBlank d) := by
  refine ⟨List.cons_ne_nil _ _, ?_, ?_⟩
  · intro d hd
    rcases List.mem_cons.mp hd with rfl | hd
    · simpa using hblank
    · simpa using List.all_eq_true.mp List.all_takeWhile d hd
  · rintro ⟨⟩
    exact hquote rfl

/-- The reader of parameters finds the items that a text holds, and no others. -/
theorem items_iff {cs : List Char} {is : List Item} : items cs = some is ↔ Spells cs is := by
  constructor
  · intro h
    fun_induction items cs generalizing is with
    | case1 =>
      cases h
      exact .nil
    | case2 c r hblank ih => exact .blank hblank (ih h)
    | case3 => cases h
    | case4 r body rest hclosing _ ih =>
      obtain ⟨is', hrest, rfl⟩ := Option.map_eq_some_iff.mp h
      obtain ⟨hbody, rfl⟩ := Item.closing_iff.mp hclosing
      exact .quoted hbody (ih hrest)
    | case5 c r hblank hquote ih =>
      obtain ⟨is', hrest, rfl⟩ := Option.map_eq_some_iff.mp h
      have hbare := isBare_takeWhile hblank hquote r
      have hspells := Spells.bare hbare (atBlank_dropWhile r) (ih hrest)
      rwa [List.cons_append, List.takeWhile_append_dropWhile] at hspells
  · intro h
    induction h with
    | nil => rw [items]
    | blank hblank _ ih => rw [items_blank hblank, ih]
    | quoted hbody _ ih => rw [items_quoted hbody, ih, Option.map_some]
    | bare hbare hcs _ ih => rw [items_bare hbare hcs, ih, Option.map_some]

/-- In front of items there may be a gap. -/
theorem items_gap {gap : List Char} (h : IsGap gap) (cs : List Char) :
    items (gap ++ cs) = items cs := by
  induction gap with
  | nil => rfl
  | cons c gap ih =>
    rw [IsGap, List.forall_mem_cons] at h
    rw [List.cons_append, items_blank h.1, ih h.2]

theorem Spells.gap_append {gap cs : List Char} {is : List Item} (hgap : IsGap gap)
    (h : Spells cs is) : Spells (gap ++ cs) is := by
  rw [← items_iff, items_gap hgap]
  exact items_iff.mpr h

/-! ### The reader of comments -/

/-- The reader of comments cuts off at the end. -/
theorem beforeComment_isPrefix (inQuotes : Bool) (cs : List Char) :
    beforeComment inQuotes cs <+: cs := by
  fun_induction beforeComment inQuotes cs with
  | case1 => exact List.prefix_rfl
  | case2 => exact List.prefix_rfl
  | case3 inQuotes c r ih =>
    exact List.cons_prefix_cons.mpr ⟨rfl, List.cons_prefix_cons.mpr ⟨rfl, ih⟩⟩
  | case4 inQuotes r ih => exact List.cons_prefix_cons.mpr ⟨rfl, ih⟩
  | case5 => exact List.nil_prefix
  | case6 inQuotes c r _ _ _ _ ih => exact List.cons_prefix_cons.mpr ⟨rfl, ih⟩

/-- Before a character that is neither an escape nor a quote, nothing changes. -/
theorem beforeComment_cons {c : Char} {inQuotes : Bool} (hescape : c ≠ '\\') (hquote : c ≠ '"')
    (hcomment : c ≠ '#' ∨ inQuotes = true) (cs : List Char) :
    beforeComment inQuotes (c :: cs) = c :: beforeComment inQuotes cs := by
  rw [beforeComment, if_neg]
  · rcases hcomment with h | h <;> simp [h]
  · exact fun h _ => hescape h
  · exact fun _ _ h => absurd h hescape
  · exact hquote

/-- Over a body this reader is in step with the reader of parameters, and it keeps the body if
it takes it for quoted or finds no `#` in it. -/
theorem beforeComment_body {body : List Char} (h : Item.IsBody body) {inQuotes : Bool}
    (hcomment : '#' ∉ body ∨ inQuotes = true) (cs : List Char) :
    beforeComment inQuotes (body ++ '"' :: cs) =
      body ++ '"' :: beforeComment (!inQuotes) cs := by
  induction h with
  | nil => rfl
  | escaped c _ ih =>
    rw [List.cons_append, List.cons_append, beforeComment_backslash, ih]
    · rfl
    · exact hcomment.imp_left fun hbody hmem =>
        hbody (List.mem_cons_of_mem _ (List.mem_cons_of_mem _ hmem))
  | @plain c body hescape hquote _ ih =>
    have hc : c ≠ '#' ∨ inQuotes = true :=
      hcomment.imp_left fun hbody heq => hbody (heq ▸ List.mem_cons_self)
    rw [List.cons_append, beforeComment_cons hescape hquote hc, ih]
    · rfl
    · exact hcomment.imp_left fun hbody hmem => hbody (List.mem_cons_of_mem _ hmem)

/-- A quotation is kept, and behind it all is as before, if this reader takes its body for quoted
or finds no `#` in it. -/
theorem beforeComment_quoted {body : List Char} (h : Item.IsBody body) {inQuotes : Bool}
    (hcomment : '#' ∉ body ∨ inQuotes = false) (cs : List Char) :
    beforeComment inQuotes ('"' :: (body ++ '"' :: cs)) =
      '"' :: (body ++ '"' :: beforeComment inQuotes cs) := by
  have hinside : '#' ∉ body ∨ (!inQuotes) = true := by simpa using hcomment
  have hbody := beforeComment_body h hinside cs
  rw [Bool.not_not] at hbody
  rw [← hbody]
  rfl

/-- Outside quotes a `#` begins the comment. -/
theorem beforeComment_sharp (cs : List Char) : beforeComment false ('#' :: cs) = [] :=
  rfl

/-- How many double quotes of a text no backslash hides. -/
def quoteMarks : List Char → Nat
  | [] => 0
  | ['\\'] => 0
  | '\\' :: _ :: r => quoteMarks r
  | '"' :: r => quoteMarks r + 1
  | _ :: r => quoteMarks r

/-- Whether a quotation is open behind a number of double quotes. -/
def openAfter (inQuotes : Bool) : Nat → Bool
  | 0 => inQuotes
  | n + 1 => openAfter (!inQuotes) n

/-- Without a double quote there is none to hide. -/
theorem quoteMarks_eq_zero {cs : List Char} (h : '"' ∉ cs) : quoteMarks cs = 0 := by
  fun_induction quoteMarks cs with
  | case1 => rfl
  | case2 => rfl
  | case3 c r ih => exact ih fun hmem => h (List.mem_cons_of_mem _ (List.mem_cons_of_mem _ hmem))
  | case4 => exact absurd List.mem_cons_self h
  | case5 c r _ _ _ ih => exact ih fun hmem => h (List.mem_cons_of_mem _ hmem)

/-- Over a gap nothing changes. -/
theorem beforeComment_gap {gap : List Char} (h : IsGap gap) (inQuotes : Bool) (cs : List Char) :
    beforeComment inQuotes (gap ++ cs) = gap ++ beforeComment inQuotes cs := by
  induction gap with
  | nil => rfl
  | cons c gap ih =>
    rw [IsGap, List.forall_mem_cons] at h
    obtain ⟨hc, hgap⟩ := h
    have hne : ∀ d, isBlank d = false → c ≠ d := by
      rintro d hd rfl
      rw [hd] at hc
      cases hc
    rw [List.cons_append, beforeComment_cons (hne '\\' rfl) (hne '"' rfl) (.inl (hne '#' rfl)),
      ih hgap]
    rfl

/-- A word is kept, and its double quotes are taken for quotes. A backslash at its end hides
the blank behind it, which is none the worse for it. -/
theorem beforeComment_word {word r : List Char} (hcomment : '#' ∉ word) (hr : AtBlank r)
    (inQuotes : Bool) :
    beforeComment inQuotes (word ++ r) =
      word ++ beforeComment (openAfter inQuotes (quoteMarks word)) r := by
  fun_induction quoteMarks word generalizing inQuotes with
  | case1 => rfl
  | case2 =>
    cases r with
    | nil => rfl
    | cons c r =>
      have hgap : IsGap [c] := by
        intro d hd
        rw [List.mem_singleton.mp hd]
        exact hr c rfl
      have hblank := beforeComment_gap hgap inQuotes r
      rw [List.singleton_append] at hblank
      rw [List.singleton_append, beforeComment_backslash, openAfter, hblank]
      rfl
  | case3 c word ih =>
    rw [List.cons_append, List.cons_append, beforeComment_backslash, ih]
    · rfl
    · exact fun hmem => hcomment (List.mem_cons_of_mem _ (List.mem_cons_of_mem _ hmem))
  | case4 word ih =>
    rw [List.cons_append, beforeComment_quote, ih, openAfter]
    · rfl
    · exact fun hmem => hcomment (List.mem_cons_of_mem _ hmem)
  | case5 c word hlast hescape hquote ih =>
    have hne : c ≠ '\\' := by
      rintro rfl
      cases word with
      | nil => exact hlast rfl rfl
      | cons d word => exact hescape d word rfl rfl
    rw [List.cons_append, beforeComment_cons hne hquote, ih]
    · rfl
    · exact fun hmem => hcomment (List.mem_cons_of_mem _ hmem)
    · exact .inl fun heq => hcomment (heq ▸ List.mem_cons_self)

/-! ### Reading a line -/

/-- Splits the part of a line before its comment into a name and parameters. -/
def LineContent.ofKept (kept : List Char) : LineContent :=
  let name := String.ofList (kept.takeWhile fun c => !isBlank c)
  match splitParams (String.ofList (kept.dropWhile fun c => !isBlank c)) with
  | none => .unclosed name
  | some params => .command name params

/-- A line holds no command exactly when nothing is left of it or a comment is. -/
theorem LineContent.read_eq_nothing {line : String} : LineContent.read line = .nothing ↔
    trim line.toList = [] ∨ (trim line.toList).head? = some '#' := by
  rw [LineContent.read]
  dsimp only
  split
  · rename_i h
    simpa using h
  · rename_i h
    have hno : ¬ (trim line.toList = [] ∨ (trim line.toList).head? = some '#') := by
      simpa using h
    simp only [hno, iff_false]
    split <;> simp

/-- A line with something in it that is no comment. -/
theorem LineContent.read_eq {line : String} (hne : trim line.toList ≠ [])
    (hcomment : (trim line.toList).head? ≠ some '#') :
    LineContent.read line = .ofKept (trim (beforeComment false (trim line.toList))) := by
  have hsome : ((trim line.toList).isEmpty ||
      decide ((trim line.toList).head? = some '#')) = false := by
    simp [hne, hcomment]
  rw [LineContent.read]
  dsimp only
  rw [hsome]
  rfl

/-- A word and what stands behind it. -/
theorem LineContent.ofKept_append {word r : List Char} (hword : ∀ c ∈ word, isBlank c = false)
    (hr : AtBlank r) :
    LineContent.ofKept (word ++ r) =
      match items r with
      | none => .unclosed (String.ofList word)
      | some is => .command (String.ofList word) (is.map Item.value) := by
  rw [LineContent.ofKept, takeWhile_word hword hr, dropWhile_word hword hr, splitParams,
    String.toList_ofList]
  cases items r <;> rfl

end InputScript
