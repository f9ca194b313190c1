import InputScript.Proofs.Token.Places

/-!
# `InputScript.Proofs.Token.Coverage`: the tokens of a text and the gaps between them

Cutting a text into tokens loses nothing of it. Each token is a piece of the text, at the place that
it names, the pieces follow one another without overlap, and there are only blanks between them.
Places are counted in bytes, and none of them is inside a character. So the program that moves on by
the bytes of each token finds the same tokens, slices the text between two characters only, and
comes to its end.

* `IsPiece`: a token that is a piece of the text.
* `Scans.isBlank_of_outside`, `Scans.woven`: what no token holds.
* `covers_of_scans`: what the tokens are to the text.
* `tokenize_covers`: all of it together, for the program on places.
-/

set_option autoImplicit false

namespace InputScript.Token

open Text

/-- A token that is a piece of a text, from its start to its end. -/
structure IsPiece (text : String) (t : Token) : Prop where
  nonempty : t.text ≠ ""
  start_valid : String.Pos.Raw.IsValid text ⟨t.start⟩
  stop_valid : String.Pos.Raw.IsValid text ⟨t.stop⟩
  slice : String.Pos.Raw.extract text ⟨t.start⟩ ⟨t.stop⟩ = t.text
  /-- It begins with no blank. -/
  first : ∀ c, t.text.toList.head? = some c → isBlank c = false

/-- Tokens that cover a text up to blanks. -/
structure Covers (text : String) (tokens : List Token) : Prop where
  /-- There are no more tokens than characters. -/
  length_le : tokens.length ≤ text.length
  pieces : ∀ t ∈ tokens, IsPiece text t
  ordered : tokens.Pairwise fun s t => s.stop ≤ t.start
  /-- A character that is in no token is a blank. -/
  outside : ∀ before c after, text.toList = before ++ c :: after →
    (∀ t ∈ tokens, ¬(t.start ≤ (String.ofList before).utf8ByteSize ∧
      (String.ofList before).utf8ByteSize < t.stop)) → isBlank c = true
  /-- The text is the tokens, with a gap before each of them and one at the end. -/
  woven : ∃ gaps last, gaps.length = tokens.length ∧ (∀ gap ∈ gaps, IsGap gap) ∧ IsGap last ∧
    text.toList = (List.zipWith (fun gap t => gap ++ t.text.toList) gaps tokens).flatten ++ last
  eq_nil_iff : tokens = [] ↔ IsGap text.toList

variable {keywords : List String} {start : Nat} {signAllowed : Bool} {cs : List Char}
  {tokens : List Token}

/-- What stands in a text is a piece of it. -/
theorem isPiece_of_append {text : String} {t : Token} {before w after : List Char}
    (htext : text.toList = before ++ w ++ after) (hw : t.text = String.ofList w)
    (hstart : t.start = String.utf8Len before) {c : Char} (hc : w.head? = some c)
    (hblank : isBlank c = false) : IsPiece text t := by
  have hstop : t.stop = String.utf8Len (before ++ w) := by
    rw [stop, hw, hstart, String.utf8ByteSize_ofList, String.utf8Len_append]
  refine ⟨?_, ?_, ?_, ?_, ?_⟩
  · rintro hempty
    rw [hw] at hempty
    have hnil : w = [] := by simpa using congrArg String.toList hempty
    rw [hnil] at hc
    cases hc
  · rw [hstart]
    exact isValid_utf8Len (htext.trans (List.append_assoc before w after))
  · rw [hstop]
    exact isValid_utf8Len htext
  · rw [hstart, hstop, hw]
    exact extract_utf8Len htext
  · intro d hd
    rw [hw, String.toList_ofList, hc] at hd
    cases hd
    exact hblank

theorem Scans.length_le (h : Scans keywords start signAllowed cs tokens) :
    tokens.length ≤ cs.length := by
  induction h with
  | nil => exact Nat.le_refl _
  | blank _ _ ih => exact Nat.le_succ_of_le ih
  | token hreads _ ih =>
    obtain ⟨c, r, rfl, -⟩ := hreads.exists_cons
    rw [List.length_cons, List.length_append, List.length_cons]
    omega

/-- A character that is in no token is a blank. -/
theorem Scans.isBlank_of_outside (h : Scans keywords start signAllowed cs tokens)
    {before after : List Char} {c : Char} (hcs : cs = before ++ c :: after)
    (hout : ∀ t ∈ tokens, ¬(t.start ≤ start + String.utf8Len before ∧
      start + String.utf8Len before < t.stop)) : isBlank c = true := by
  induction h generalizing before with
  | nil => simp at hcs
  | @blank start _ d cs tokens hblank _ ih =>
    cases before with
    | nil =>
      obtain ⟨rfl, -⟩ := List.cons.inj hcs
      exact hblank
    | cons b before =>
      obtain ⟨rfl, htail⟩ := List.cons.inj hcs
      refine ih htail fun t ht => ?_
      have hbytes : start + d.utf8Size + String.utf8Len before =
          start + String.utf8Len (d :: before) := by
        rw [String.utf8Len_cons]
        omega
      rw [hbytes]
      exact hout t ht
  | @token start _ w rest kind tokens _ _ ih =>
    rcases List.append_eq_append_iff.mp hcs with ⟨more, rfl, hrest⟩ | ⟨more, rfl, hrest⟩
    -- The character stands behind the token.
    · refine ih hrest fun t ht => ?_
      rw [String.utf8ByteSize_ofList, Nat.add_assoc, ← String.utf8Len_append]
      exact hout t (List.mem_cons_of_mem _ ht)
    -- The character is behind the token if nothing of the token is left, and in it otherwise.
    · cases more with
      | nil =>
        have hfront : rest = [] ++ c :: after := hrest.symm
        refine ih hfront fun t ht => ?_
        rw [String.utf8ByteSize_ofList, List.append_nil]
        exact hout t (List.mem_cons_of_mem _ ht)
      | cons d more =>
        have hin := hout _ List.mem_cons_self
        have := d.utf8Size_pos
        rw [stop, String.utf8ByteSize_ofList, String.utf8Len_append, String.utf8Len_cons] at hin
        dsimp only at hin
        omega

/-- The text is the tokens and the gaps between them. -/
theorem Scans.woven (h : Scans keywords start signAllowed cs tokens) :
    ∃ gaps last, gaps.length = tokens.length ∧ (∀ gap ∈ gaps, IsGap gap) ∧ IsGap last ∧
      cs = (List.zipWith (fun gap t => gap ++ t.text.toList) gaps tokens).flatten ++ last := by
  induction h with
  | nil => exact ⟨[], [], rfl, by simp, by decide, rfl⟩
  | @blank _ _ c _ tokens hblank _ ih =>
    obtain ⟨gaps, last, hlength, hgaps, hlast, rfl⟩ := ih
    -- The blank joins the first gap, which is the last one if there is no token.
    cases gaps with
    | nil =>
      exact ⟨[], c :: last, hlength, hgaps, List.forall_mem_cons.mpr ⟨hblank, hlast⟩, rfl⟩
    | cons gap gaps =>
      obtain ⟨t, tokens, rfl⟩ := List.exists_cons_of_length_eq_add_one hlength.symm
      rw [List.forall_mem_cons] at hgaps
      exact ⟨(c :: gap) :: gaps, last, hlength, List.forall_mem_cons.mpr
        ⟨List.forall_mem_cons.mpr ⟨hblank, hgaps.1⟩, hgaps.2⟩, hlast, rfl⟩
  | @token _ _ w _ _ _ _ _ ih =>
    obtain ⟨gaps, last, hlength, hgaps, hlast, rfl⟩ := ih
    refine ⟨[] :: gaps, last, by rw [List.length_cons, List.length_cons, hlength],
      List.forall_mem_cons.mpr ⟨by decide, hgaps⟩, hlast, ?_⟩
    rw [List.zipWith_cons_cons, List.flatten_cons, List.nil_append, String.toList_ofList,
      List.append_assoc]

/-- The tokens of a text cover it. -/
theorem covers_of_scans {text : String} (hscans : Scans keywords 0 true text.toList tokens) :
    Covers text tokens := by
  have hpieces : ∀ t ∈ tokens, IsPiece text t := by
    intro t ht
    obtain ⟨before, w, after, _, htext, hw, hstart, hreads⟩ := hscans.mem ht
    obtain ⟨c, r, rfl, hc⟩ := hreads.exists_cons
    exact isPiece_of_append htext hw (hstart.trans (Nat.zero_add _)) rfl hc
  refine ⟨hscans.length_le, hpieces, hscans.ordered, ?_, hscans.woven, ?_, ?_⟩
  · intro before c after htext hout
    refine hscans.isBlank_of_outside htext fun t ht => ?_
    rw [Nat.zero_add, ← String.utf8ByteSize_ofList]
    exact hout t ht
  · intro hnil
    obtain ⟨gaps, last, hlength, -, hlast, htext⟩ := hscans.woven
    rw [hnil, List.length_nil, List.length_eq_zero_iff] at hlength
    rw [htext, hlength]
    exact hlast
  · intro hgap
    rw [List.eq_nil_iff_forall_not_mem]
    intro t ht
    obtain ⟨before, w, after, _, htext, -, -, hreads⟩ := hscans.mem ht
    obtain ⟨c, r, rfl, hc⟩ := hreads.exists_cons
    have hblank := hgap c (by rw [htext]; simp)
    rw [hc] at hblank
    cases hblank

/-- The length of a token is positive and ends between two characters. So a text is cut into tokens
by as many calls as there are tokens and one that finds no more, no slice begins or ends inside a
character, and the tokens cover the text: they are pieces of it, one behind the other, and what is
left are blanks. -/
theorem tokenize_covers (keywords : List String) (text : String) :
    (∀ signAllowed rest first, rest.toList.head? = some first →
      ∃ kind length, Cutting.lengthOf keywords signAllowed rest first = .ok (kind, length) ∧
        0 < length ∧ String.Pos.Raw.IsValid rest ⟨length⟩) ∧
    (∀ calls, (tokenize keywords text).length < calls →
      Cutting.collect keywords text calls ⟨0, true⟩ = .ok (some (tokenize keywords text))) ∧
    Covers text (tokenize keywords text) := by
  have hscans := tokenize_iff.mp (Eq.refl (tokenize keywords text))
  refine ⟨fun signAllowed _ _ => Cutting.lengthOf_boundary keywords signAllowed, ?_,
    covers_of_scans hscans⟩
  intro calls hcalls
  obtain ⟨calls, rfl⟩ := Nat.exists_eq_add_one_of_ne_zero (Nat.ne_zero_of_lt hcalls)
  exact Cutting.collect_of_scans hscans (List.nil_append _).symm rfl (Nat.le_of_lt_succ hcalls)

end InputScript.Token
