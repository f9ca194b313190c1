import InputScript.Proofs.Token.Scanning

/-!
# `InputScript.Proofs.Token.LineLocal`: the tokens of a text, line by line

A line feed is a blank, so nothing goes on behind it: the tokens of a text are those of its lines,
with one exception. A backslash in a literal takes the next character as it is, and so it takes a
line feed. A literal whose line ends with such a backslash goes on in the next line, while any other
literal without a closing quote ends with its line.

* `IsPending`: a literal at the end of a text that would go on in a next line.
* `Scans.append_newline`: the tokens of two lines, if there is no such literal in the first.
* `tokenize_append_newline_iff`: only such a literal keeps a line from being read on its own, and
  only such a literal holds a line feed.
-/

set_option autoImplicit false

namespace InputScript.Token

open Text

/-- A token some bytes further on. -/
def moved (n : Nat) (t : Token) : Token :=
  { t with start := t.start + n }

/-- The text of a literal that is open, with a backslash at its end that waits for the next
character. -/
def Waits (cs : List Char) : Prop :=
  ∃ body, IsOpen body ∧ cs = '"' :: (body ++ ['\\'])

/-- A literal that would take a next line feed for a character of its own. -/
def IsPending (t : Token) : Prop :=
  t.kind = .literal ∧ Waits t.text.toList

/-! ### Line feeds in a token -/

/-- Behind what is open, a backslash waits for a character. -/
theorem IsOpen.not_append_backslash {body : List Char} (h : IsOpen body) :
    ¬IsOpen (body ++ ['\\']) := by
  induction h with
  | nil =>
    intro hopen
    rw [List.nil_append] at hopen
    cases hopen with
    | plain _ _ hescape _ => exact hescape rfl
  | @plain c cs _ _ hescape _ ih =>
    intro hopen
    rw [List.cons_append] at hopen
    generalize cs ++ ['\\'] = r at hopen ih
    cases hopen with
    | plain _ _ _ hopen => exact ih hopen
    | escaped => exact hescape rfl
  | @escaped c cs _ ih =>
    intro hopen
    rw [List.cons_append, List.cons_append] at hopen
    cases hopen with
    | plain _ _ hescape _ => exact hescape rfl
    | escaped _ hopen => exact ih hopen

/-- A line feed in what is open stands behind a backslash. -/
theorem IsOpen.newline {cs : List Char} (h : IsOpen cs) {before after : List Char}
    (hcs : cs = before ++ '\n' :: after) : ∃ body, IsOpen body ∧ before = body ++ ['\\'] := by
  induction h generalizing before with
  | nil => simp at hcs
  | @plain c _ hquote hline hescape _ ih =>
    cases before with
    | nil => exact absurd (List.cons.inj hcs).1 hline
    | cons d before =>
      obtain ⟨rfl, htail⟩ := List.cons.inj hcs
      obtain ⟨body, hbody, rfl⟩ := ih htail
      exact ⟨c :: body, .plain hquote hline hescape hbody, rfl⟩
  | @escaped c _ _ ih =>
    match before, hcs with
    | [d], hcs =>
      obtain ⟨hd, -⟩ := List.cons.inj hcs
      exact ⟨[], .nil, by rw [← hd]; rfl⟩
    | d :: e :: before, hcs =>
      obtain ⟨hd, htail⟩ := List.cons.inj hcs
      obtain ⟨he, htail⟩ := List.cons.inj htail
      obtain ⟨body, hbody, rfl⟩ := ih htail
      exact ⟨'\\' :: c :: body, .escaped c hbody, by rw [← hd, ← he]; rfl⟩

/-- A line feed in a literal stands behind a backslash. -/
theorem EndsLiteral.newline {body rest : List Char} (h : EndsLiteral body rest)
    {before after : List Char} (hbody : body = before ++ '\n' :: after) :
    ∃ cs, IsOpen cs ∧ before = cs ++ ['\\'] := by
  have hinner {cs : List Char} {d : Char} (hopen : IsOpen cs) (hd : d ≠ '\n')
      (hcs : cs ++ [d] = before ++ '\n' :: after) : ∃ cs, IsOpen cs ∧ before = cs ++ ['\\'] := by
    rcases List.eq_nil_or_concat' after with rfl | ⟨tail, e, rfl⟩
    · exact absurd (List.cons.inj (List.append_inj' hcs rfl).2).1 hd
    · rw [← List.cons_append, ← List.append_assoc] at hcs
      exact hopen.newline (List.append_inj' hcs rfl).1
  cases h with
  | closed _ hopen => exact hinner hopen (by decide) hbody
  | line _ hopen => exact hopen.newline hbody
  | text hopen => exact hopen.newline hbody
  | pending hopen => exact hinner hopen (by decide) hbody

variable {keywords : List String}

/-- A line feed in a token stands in a literal, behind a backslash. -/
theorem Reads.newline {signAllowed : Prop} {w rest : List Char} {kind : TokenKind}
    (h : Reads keywords signAllowed w rest kind) {before after : List Char}
    (hw : w = before ++ '\n' :: after) : kind = .literal ∧ Waits before := by
  have hkind : kind = .literal := by
    by_contra hkind
    have hblank := h.isBlank_of_mem hkind '\n' (by simp [hw])
    cases hblank
  subst hkind
  cases h with
  | literal hends =>
    cases before with
    | nil => exact absurd (List.cons.inj hw).1 (by decide)
    | cons d before =>
      obtain ⟨rfl, hbody⟩ := List.cons.inj hw
      obtain ⟨cs, hopen, rfl⟩ := hends.newline hbody
      exact ⟨rfl, cs, hopen, rfl⟩

/-! ### Two lines -/

/-- A literal in which a backslash waits is at the end of its text. -/
theorem EndsLiteral.eq_nil_of_waits {body after : List Char}
    (h : EndsLiteral (body ++ ['\\']) after) (hopen : IsOpen body) : after = [] := by
  generalize hcs : body ++ ['\\'] = cs at h
  cases h with
  | closed => exact absurd (List.append_inj' hcs rfl).2 (by decide)
  | line _ hopen' => exact absurd (hcs ▸ hopen') hopen.not_append_backslash
  | text | pending => rfl

/-- A token of a line is a token of the text that goes on behind it, if no backslash waits. -/
theorem Reads.append_newline {signAllowed : Prop} {w after : List Char} {kind : TokenKind}
    (h : Reads keywords signAllowed w after kind) (hw : kind = .literal → ¬Waits w)
    (rest : List Char) : Reads keywords signAllowed w (after ++ '\n' :: rest) kind := by
  have hrun : ∀ v, IsRun v → '\n' ∉ v := fun v hv hmem => nomatch hv.isBlank_of_mem _ hmem
  have hnumeral : ∀ v, IsNumeral signAllowed v → '\n' ∉ v :=
    fun v hv hmem => nomatch hv.isBlank_of_mem _ hmem
  cases h with
  | keyword hc hlongest hmem =>
    refine .keyword hc ?_ hmem
    rw [← List.append_assoc]
    exact hlongest.append_newline hrun rest
  | identifier hc hlongest hmem =>
    refine .identifier hc ?_ hmem
    rw [← List.append_assoc]
    exact hlongest.append_newline hrun rest
  | numeric hlongest =>
    refine .numeric ?_
    rw [← List.append_assoc]
    exact hlongest.append_newline hnumeral rest
  | literal hends =>
    cases hends with
    | closed after hopen => exact .literal (.closed _ hopen)
    | line after hopen => exact .literal (.line _ hopen)
    | text hopen => exact .literal (.line rest hopen)
    | pending hopen => exact absurd ⟨_, hopen, rfl⟩ (hw rfl)
  | symbol hblank hc hquote hnone =>
    refine .symbol hblank hc hquote fun v hv hbegins => hnone v hv ?_
    exact prefix_of_newline (hnumeral v hv) hbegins

/-- The tokens of two lines, if there is no literal in the first that would go on. -/
theorem Scans.append_newline {start : Nat} {signAllowed : Bool} {cs : List Char}
    {tokens : List Token} (h : Scans keywords start signAllowed cs tokens)
    (hpending : ∀ t ∈ tokens, ¬IsPending t) {rest : List Char} {more : List Token}
    (hrest : Scans keywords (start + String.utf8Len cs + 1) true rest more) :
    Scans keywords start signAllowed (cs ++ '\n' :: rest) (tokens ++ more) := by
  induction h with
  | nil start _ => exact .blank rfl hrest
  | @blank start _ c cs _ hblank _ ih =>
    have hbytes : start + String.utf8Len (c :: cs) + 1 =
        start + c.utf8Size + String.utf8Len cs + 1 := by
      rw [String.utf8Len_cons]
      omega
    rw [hbytes] at hrest
    exact .blank hblank (ih hpending hrest)
  | @token start _ w after kind _ hreads _ ih =>
    rw [List.forall_mem_cons] at hpending
    have hbytes : start + String.utf8Len (w ++ after) + 1 =
        start + (String.ofList w).utf8ByteSize + String.utf8Len after + 1 := by
      rw [String.utf8Len_append, String.utf8ByteSize_ofList]
      omega
    rw [hbytes] at hrest
    have hw : kind = .literal → ¬Waits w := by
      intro hkind hwaits
      refine hpending.1 ⟨hkind, ?_⟩
      rwa [String.toList_ofList]
    rw [List.append_assoc, List.cons_append]
    exact .token (hreads.append_newline hw rest) (ih hpending.2 hrest)

/-- The tokens do not depend on where their text begins. -/
theorem Scans.moved {start : Nat} {signAllowed : Bool} {cs : List Char} {tokens : List Token}
    (h : Scans keywords start signAllowed cs tokens) (n : Nat) :
    Scans keywords (start + n) signAllowed cs (tokens.map (moved n)) := by
  induction h with
  | nil start signAllowed => exact .nil (start + n) signAllowed
  | blank hblank _ ih =>
    rw [Nat.add_right_comm] at ih
    exact .blank hblank ih
  | token hreads _ ih =>
    rw [Nat.add_right_comm] at ih
    exact .token hreads ih

/-- A literal in which a backslash waits is at the end of its text. -/
theorem Scans.stop_of_pending {cs : List Char} {tokens : List Token} {start : Nat}
    {signAllowed : Bool} (h : Scans keywords start signAllowed cs tokens) {t : Token}
    (ht : t ∈ tokens) (hpending : IsPending t) : t.stop = start + String.utf8Len cs := by
  obtain ⟨before, w, after, _, rfl, htext, hstart, hreads⟩ := h.mem ht
  obtain ⟨hkind, body, hopen, hwaits⟩ := hpending
  rw [htext, String.toList_ofList] at hwaits
  subst hwaits
  rw [hkind] at hreads
  have hnil := hreads.endsLiteral.eq_nil_of_waits hopen
  rw [hnil, stop, htext, hstart, String.utf8ByteSize_ofList, List.append_nil,
    String.utf8Len_append, Nat.add_assoc]

/-- The tokens of a text are those of its lines, unless a backslash at the end of a line waits for a
character of its literal. Only such a literal holds a line feed. -/
theorem tokenize_append_newline_iff (keywords : List String) (a b : String) :
    (tokenize keywords (a ++ "\n" ++ b) =
        tokenize keywords a ++ (tokenize keywords b).map (moved (a.utf8ByteSize + 1)) ↔
      ∀ t ∈ tokenize keywords a, ¬IsPending t) ∧
    ∀ text, ∀ t ∈ tokenize keywords text, ∀ before after,
      t.text.toList = before ++ '\n' :: after → t.kind = .literal ∧ Waits before := by
  have hcs : (a ++ "\n" ++ b).toList = a.toList ++ '\n' :: b.toList := by
    rw [String.toList_append, String.toList_append, List.append_assoc]
    rfl
  have ha := tokenize_iff.mp (Eq.refl (tokenize keywords a))
  have hb := tokenize_iff.mp (Eq.refl (tokenize keywords b))
  refine ⟨⟨?_, ?_⟩, ?_⟩
  -- A token in which a backslash waits would have to end with either text.
  · intro heq t ht hpending
    have hab := tokenize_iff.mp heq
    have hstop := ha.stop_of_pending ht hpending
    have hstop' := hab.stop_of_pending (List.mem_append_left _ ht) hpending
    rw [hcs, String.utf8Len_append, String.utf8Len_cons] at hstop'
    have := '\n'.utf8Size_pos
    omega
  · intro hpending
    have hmoved := hb.moved (a.utf8ByteSize + 1)
    rw [Nat.zero_add] at hmoved
    rw [tokenize_iff, hcs]
    refine ha.append_newline hpending ?_
    rwa [Nat.zero_add, String.utf8Len_toList]
  · intro text t ht before after htext
    obtain ⟨_, w, _, _, -, hw, -, hreads⟩ := (tokenize_iff.mp rfl).mem ht
    rw [hw, String.toList_ofList] at htext
    exact hreads.newline htext

/-- An open quote ends with its line, and the next line is read on its own. -/
theorem tokenize_append_newline_open_quote :
    tokenize builtinKeywords ("\"open" ++ "\n" ++ "Wait 5") =
      tokenize builtinKeywords "\"open" ++
        (tokenize builtinKeywords "Wait 5").map (moved ("\"open".utf8ByteSize + 1)) := by
  have htokens : tokenize builtinKeywords "\"open" = [⟨.literal, "\"open", 0⟩] := by
    decide +kernel
  refine (tokenize_append_newline_iff builtinKeywords "\"open" "Wait 5").1.mpr ?_
  rw [htokens, List.forall_mem_singleton]
  rintro ⟨-, body, -, hbody⟩
  have hlast := congrArg List.getLast? hbody
  rw [← List.cons_append, List.getLast?_concat] at hlast
  exact absurd hlast (by decide)

/-- Behind a backslash the line feed is taken for a character of the literal, and so is the next
line. -/
theorem backslash_hides_newline :
    tokenize builtinKeywords ("\"\\" ++ "\n" ++ "x") ≠
      tokenize builtinKeywords "\"\\" ++
        (tokenize builtinKeywords "x").map (moved ("\"\\".utf8ByteSize + 1)) ∧
    tokenize builtinKeywords ("\"\\" ++ "\n" ++ "x") = [⟨.literal, "\"\\\nx", 0⟩] := by
  decide +kernel

end InputScript.Token
