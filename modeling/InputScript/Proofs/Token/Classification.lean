import InputScript.Proofs.Token.Scanning

/-!
# `InputScript.Proofs.Token.Classification`: the class of a token

The class of a token depends on its first character, on what follows, and for a sign on what stands
before it: a sign is part of a number at the start of the text, directly behind a blank, and
directly behind a symbol other than the plus sign. The scan keeps this as a flag, which says nothing
of the text before. `MaySign` says it of the text and its tokens, and `Scans.reads` is the invariant
that ties the two together.

* `Reads.letter_iff`, `Reads.numeral_iff`, `Reads.quote_iff`: which class a token has.
* `Scans.reads`: the flag stands for the place of a token.
* `Scans.not_maySign`: behind a word, a number, a literal or a plus sign no sign is taken.
* `tokenize_classified`: all of it together.
-/

set_option autoImplicit false

namespace InputScript.Token

open Text

/-! ### The class of one token -/

/-- The class of a token and where it ends, by its characters and what follows them. -/
structure Classified (keywords : List String) (signAllowed : Prop) (w after : List Char)
    (kind : TokenKind) : Prop where
  word_iff : kind = .keyword ∨ kind = .identifier ↔ ∃ c ∈ w.head?, isAlphabetic c = true
  word_longest : kind = .keyword ∨ kind = .identifier → IsLongest IsRun w (w ++ after)
  keyword_iff : kind = .keyword ∨ kind = .identifier →
    (kind = .keyword ↔ String.ofList w ∈ keywords)
  numeric_iff : kind = .numeric ↔ IsLongest (IsNumeral signAllowed) w (w ++ after)
  literal_iff : kind = .literal ↔ w.head? = some '"'
  literal_ends : ∀ body, w = '"' :: body → EndsLiteral body after
  /-- Whatever begins like none of these is a symbol. -/
  symbol_iff : kind = .symbol ↔ (¬∃ c ∈ w.head?, isAlphabetic c = true) ∧
    (¬∃ v, IsNumeral signAllowed v ∧ v <+: w ++ after) ∧ w.head? ≠ some '"'
  symbol_single : kind = .symbol → ∃ c, w = [c]

variable {keywords : List String} {signAllowed : Prop} {w after : List Char} {kind : TokenKind}

theorem Reads.letter_iff (h : Reads keywords signAllowed w after kind) :
    kind = .keyword ∨ kind = .identifier ↔ ∃ c ∈ w.head?, isAlphabetic c = true := by
  cases h with
  | keyword hc _ _ | identifier hc _ _ => simp [hc]
  | numeric hw =>
    obtain ⟨c, r, rfl, -⟩ := hw.mem.exists_cons
    simp [(hw.mem.first hw.begins).1]
  | literal _ => simp [isAlphabetic_quote]
  | symbol _ hc _ _ => simp [hc]

theorem Reads.numeral_iff (h : Reads keywords signAllowed w after kind) :
    kind = .numeric ↔ ∃ v, IsNumeral signAllowed v ∧ v <+: w ++ after := by
  cases h with
  | keyword hc _ _ | identifier hc _ _ =>
    refine iff_of_false nofun ?_
    rintro ⟨v, hv, hbegins⟩
    rw [(hv.first hbegins).1] at hc
    cases hc
  | numeric hw => exact iff_of_true rfl ⟨w, hw.mem, hw.begins⟩
  | literal _ =>
    refine iff_of_false nofun ?_
    rintro ⟨v, hv, hbegins⟩
    exact (hv.first hbegins).2.1 rfl
  | symbol _ _ _ hnone =>
    refine iff_of_false nofun ?_
    rintro ⟨v, hv, hbegins⟩
    exact hnone v hv hbegins

theorem Reads.quote_iff (h : Reads keywords signAllowed w after kind) :
    kind = .literal ↔ w.head? = some '"' := by
  cases h with
  | keyword hc _ _ | identifier hc _ _ =>
    refine iff_of_false nofun ?_
    rintro ⟨⟩
    rw [isAlphabetic_quote] at hc
    cases hc
  | numeric hw =>
    obtain ⟨c, r, rfl, -⟩ := hw.mem.exists_cons
    refine iff_of_false nofun ?_
    rintro ⟨⟩
    exact (hw.mem.first hw.begins).2.1 rfl
  | literal _ => exact iff_of_true rfl rfl
  | symbol _ _ hquote _ =>
    refine iff_of_false nofun ?_
    rintro ⟨⟩
    exact hquote rfl

/-- A sign that begins no number is a symbol. -/
theorem Reads.kind_of_sign {c : Char} (h : Reads keywords signAllowed (c :: w) after kind)
    (hallowed : ¬signAllowed) (hsign : c = '+' ∨ c = '-') : kind = .symbol := by
  cases h with
  | keyword hc _ _ | identifier hc _ _ =>
    have hletter : isAlphabetic c = false := by
      rcases hsign with rfl | rfl <;> decide +kernel
    rw [hletter] at hc
    cases hc
  | numeric hw =>
    obtain ⟨d, r, heq, hd⟩ := hw.mem.exists_cons
    obtain ⟨rfl, -⟩ := List.cons.inj heq
    rcases hd with hdigit | ⟨hallowed', -⟩
    · rw [isDigit_of_sign hsign] at hdigit
      cases hdigit
    · exact absurd hallowed' hallowed
  | literal _ => exact hsign.elim nofun nofun
  | symbol _ _ _ _ => rfl

theorem Reads.classified (h : Reads keywords signAllowed w after kind) :
    Classified keywords signAllowed w after kind where
  word_iff := h.letter_iff
  word_longest := by
    rintro (rfl | rfl)
    · cases h with
      | keyword _ hw _ => exact hw
    · cases h with
      | identifier _ hw _ => exact hw
  keyword_iff := by
    rintro (rfl | rfl)
    · cases h with
      | keyword _ _ hmem => exact iff_of_true rfl hmem
    · cases h with
      | identifier _ _ hmem => exact iff_of_false nofun hmem
  numeric_iff := by
    constructor
    · rintro rfl
      cases h with
      | numeric hw => exact hw
    · intro hw
      exact h.numeral_iff.mpr ⟨w, hw.mem, hw.begins⟩
  literal_iff := h.quote_iff
  literal_ends := by
    rintro body rfl
    obtain rfl := h.quote_iff.mpr rfl
    exact h.endsLiteral
  symbol_iff := by
    rw [← h.letter_iff, ← h.numeral_iff, Ne, ← h.quote_iff]
    cases kind <;> simp
  symbol_single := by
    rintro rfl
    cases h with
    | symbol => exact ⟨_, rfl⟩

/-- A token that ends with a blank is a literal in front of a line feed or at the end. -/
theorem Reads.last (h : Reads keywords signAllowed w after kind) :
    AtBlank after ∨ ∀ c, w.getLast? = some c → isBlank c = false := by
  by_cases hkind : kind = .literal
  · obtain rfl := hkind
    cases h with
    | literal hends =>
      cases hends with
      | closed after _ =>
        right
        rw [← List.cons_append, List.getLast?_concat]
        rintro c ⟨⟩
        rfl
      | line after _ => exact .inl (atBlank_cons rfl after)
      | text _ | pending _ => exact .inl atBlank_nil
  · exact .inr fun c hc => h.isBlank_of_mem hkind c (List.mem_of_getLast? hc)

/-! ### Where a sign is part of a number -/

/-- Whether a sign behind a text may begin a number. -/
inductive MaySign (tokens : List Token) (before : List Char) : Prop
  /-- At the start. -/
  | start : before = [] → MaySign tokens before
  /-- Directly behind a blank. -/
  | blank {c : Char} : before.getLast? = some c → isBlank c = true → MaySign tokens before
  /-- Directly behind a symbol other than the plus sign. -/
  | symbol {s : Token} : s ∈ tokens → s.stop = String.utf8Len before → s.kind = .symbol →
      s.text ≠ "+" → MaySign tokens before

theorem allowsSign_iff {text : String} :
    allowsSign kind text = true ↔ kind = .symbol ∧ text ≠ "+" := by
  simp [allowsSign]

/-- Behind a token that ends with no blank, it depends on this token alone. -/
theorem maySign_append_iff {tokens : List Token} {before : List Char} {t : Token}
    (ht : t ∈ tokens) (hw : w ≠ []) (hlast : ∀ c, w.getLast? = some c → isBlank c = false)
    (hstop : t.stop = String.utf8Len (before ++ w))
    (hunique : ∀ s ∈ tokens, s.stop = t.stop → s = t) :
    MaySign tokens (before ++ w) ↔ allowsSign t.kind t.text = true := by
  rw [allowsSign_iff]
  constructor
  · rintro (hnil | ⟨hblank, hc⟩ | ⟨hs, hstart, hkind, htext⟩)
    · exact absurd (List.append_eq_nil_iff.mp hnil).2 hw
    · rw [List.getLast?_append_of_ne_nil before hw] at hblank
      rw [hlast _ hblank] at hc
      cases hc
    · obtain rfl := hunique _ hs (hstart.trans hstop.symm)
      exact ⟨hkind, htext⟩
  · rintro ⟨hkind, htext⟩
    exact .symbol ht hstop hkind htext

/-- The scan's flag says whether the text before a token lets a sign begin a number: each token is
read as its place in the text says. -/
theorem Scans.reads {start : Nat} {allowed : Bool} {cs : List Char} {rest : List Token}
    (h : Scans keywords start allowed cs rest) {tokens : List Token} {before : List Char}
    (hstart : start = String.utf8Len before) (hrest : ∀ t ∈ rest, t ∈ tokens)
    (hunique : ∀ s ∈ tokens, ∀ t ∈ tokens, s.stop = t.stop → s = t)
    (hallowed : AtBlank cs ∨ (allowed = true ↔ MaySign tokens before)) {t : Token}
    (ht : t ∈ rest) : ∃ before' w after, before ++ cs = before' ++ w ++ after ∧
      t.text = String.ofList w ∧ t.start = String.utf8Len before' ∧
      Reads keywords (MaySign tokens before') w after t.kind := by
  -- The flag need not fit in front of a blank, where no sign can stand: a literal that ends with
  -- its line may end with a blank.
  induction h generalizing before with
  | nil => cases ht
  | @blank start _ c cs rest hblank _ ih =>
    have hbytes : start + c.utf8Size = String.utf8Len (before ++ [c]) := by
      rw [hstart, String.utf8Len_append, String.utf8Len_cons, String.utf8Len_nil, Nat.zero_add]
    have hsign : MaySign tokens (before ++ [c]) := .blank List.getLast?_concat hblank
    rw [List.append_cons]
    exact ih hbytes hrest (.inr (iff_of_true rfl hsign)) ht
  | @token start allowed w after kind rest hreads _ ih =>
    obtain ⟨c, r, rfl, hc⟩ := hreads.exists_cons
    have hsign : (allowed = true) = MaySign tokens before := by
      rcases hallowed with hblank | hsign
      · rw [hblank c rfl] at hc
        cases hc
      · exact propext hsign
    rw [List.forall_mem_cons] at hrest
    have hbytes : start + (String.ofList (c :: r)).utf8ByteSize =
        String.utf8Len (before ++ c :: r) := by
      rw [hstart, String.utf8ByteSize_ofList, String.utf8Len_append]
    rw [hsign] at hreads
    rcases List.mem_cons.mp ht with rfl | ht
    · exact ⟨before, c :: r, after, (List.append_assoc _ _ _).symm, rfl, hstart, hreads⟩
    · rw [← List.append_assoc]
      refine ih hbytes hrest.2 (hreads.last.imp_right fun hlast => ?_) ht
      exact (maySign_append_iff hrest.1 (List.cons_ne_nil c r) hlast hbytes
        fun s hs => hunique s hs _ hrest.1).symm

/-- Directly behind a word, a number, a literal or a plus sign no sign begins a number. -/
theorem Scans.not_maySign {allowed : Bool} {cs : List Char} {tokens : List Token}
    (h : Scans keywords 0 allowed cs tokens) {before after : List Char} {c : Char}
    (hcs : cs = before ++ c :: after) (hc : isBlank c = false) {s : Token} (hs : s ∈ tokens)
    (hstop : s.stop = String.utf8Len before) (hkind : s.kind ≠ .symbol ∨ s.text = "+") :
    ¬MaySign tokens before := by
  obtain ⟨before', w, rest, _, hcs', htext, hstart, hreads⟩ := h.mem hs
  have hbytes : s.stop = String.utf8Len (before' ++ w) := by
    rw [stop, htext, hstart, String.utf8ByteSize_ofList, String.utf8Len_append, Nat.zero_add]
  obtain ⟨rfl, rfl⟩ := append_inj_of_utf8Len (hcs'.symm.trans hcs) (hbytes.symm.trans hstop)
  obtain ⟨d, r, rfl, -⟩ := hreads.exists_cons
  have hlast : ∀ d', (d :: r).getLast? = some d' → isBlank d' = false := by
    refine hreads.last.resolve_left fun hblank => ?_
    rw [hblank c rfl] at hc
    cases hc
  rw [maySign_append_iff hs (List.cons_ne_nil d r) hlast hbytes
    fun _ hs' => h.eq_of_stop hs' hs, allowsSign_iff]
  rintro ⟨hsymbol, hplus⟩
  exact hkind.elim (fun hne => hne hsymbol) hplus

/-- Each token has the class that its characters, what follows them and what stands before them ask
for, and it is as long as its class lets it be. A sign directly behind a word, a number, a literal
or a plus sign is a symbol. -/
theorem tokenize_classified (keywords : List String) (text : String) {t : Token}
    (ht : t ∈ tokenize keywords text) :
    ∃ before w after, text.toList = before ++ w ++ after ∧ t.text = String.ofList w ∧
      t.start = String.utf8Len before ∧
      Classified keywords (MaySign (tokenize keywords text) before) w after t.kind ∧
      ∀ s ∈ tokenize keywords text, s.stop = t.start → s.kind ≠ .symbol ∨ s.text = "+" →
        w.head? = some '+' ∨ w.head? = some '-' → t.kind = .symbol := by
  have hscans := tokenize_iff.mp (Eq.refl (tokenize keywords text))
  have hfront : 0 = String.utf8Len [] := rfl
  obtain ⟨before, w, after, htext, hw, hstart, hreads⟩ := hscans.reads hfront (fun _ hs => hs)
    (fun _ hs _ ht => hscans.eq_of_stop hs ht) (.inr (iff_of_true rfl (.start rfl))) ht
  rw [List.nil_append] at htext
  refine ⟨before, w, after, htext, hw, hstart, hreads.classified, ?_⟩
  intro s hs hstop hkind hsign
  obtain ⟨c, r, rfl, hc⟩ := hreads.exists_cons
  rw [List.append_assoc, List.cons_append] at htext
  have hno := hscans.not_maySign htext hc hs (hstop.trans hstart) hkind
  exact hreads.kind_of_sign hno (hsign.imp Option.some.inj Option.some.inj)

/-- In a chord the plus sign is a symbol, although a digit follows. -/
theorem tokenize_classified_chord : ∃ before after, "Ctrl+3".toList = before ++ '+' :: after ∧
    Classified builtinKeywords (MaySign (tokenize builtinKeywords "Ctrl+3") before) ['+'] after
      .symbol := by
  obtain ⟨before, w, after, htext, hw, -, hclass, -⟩ :=
    tokenize_classified builtinKeywords "Ctrl+3" (t := ⟨.symbol, "+", 4⟩) (by decide +kernel)
  have hplus : w = ['+'] := by
    rw [← String.toList_ofList (l := w), ← hw]
    rfl
  subst hplus
  rw [List.append_assoc] at htext
  exact ⟨before, after, htext, hclass⟩

end InputScript.Token
