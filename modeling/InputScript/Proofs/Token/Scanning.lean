import InputScript.Proofs.Text.Bytes
import InputScript.Proofs.Token.Lexeme

/-!
# `InputScript.Proofs.Token.Scanning`: a text as a sequence of tokens and blanks

`Scans` says what the tokens of a text are without the scan that finds them: a text is empty, or a
blank and a text, or a token and a text. Two things go from one piece to the next, the number of
bytes so far and whether a sign may begin a number. `scan_iff` says that there is exactly one such
sequence and that `scan` finds it.

* `Scans`, `scan_iff`, `tokenize_iff`: the sequence and the scan.
* `Scans.mem`: each token, with what stands before and behind it.
* `Scans.ordered`: the tokens follow one another.
-/

set_option autoImplicit false

namespace InputScript.Token

open Text

/-- The tokens of a text that begins `start` bytes into the whole one. -/
inductive Scans (keywords : List String) : Nat → Bool → List Char → List Token → Prop
  | nil (start : Nat) (signAllowed : Bool) : Scans keywords start signAllowed [] []
  | blank {start : Nat} {signAllowed : Bool} {c : Char} {cs : List Char} {tokens : List Token} :
      isBlank c = true → Scans keywords (start + c.utf8Size) true cs tokens →
      Scans keywords start signAllowed (c :: cs) tokens
  | token {start : Nat} {signAllowed : Bool} {w after : List Char} {kind : TokenKind}
      {tokens : List Token} : Reads keywords (signAllowed = true) w after kind →
      Scans keywords (start + (String.ofList w).utf8ByteSize) (allowsSign kind (String.ofList w))
        after tokens →
      Scans keywords start signAllowed (w ++ after) (⟨kind, String.ofList w, start⟩ :: tokens)

variable {keywords : List String} {start : Nat} {signAllowed : Bool} {cs : List Char}
  {tokens : List Token}

/-- The scan finds the tokens, and no others. -/
theorem scan_iff :
    scan keywords start signAllowed cs = tokens ↔ Scans keywords start signAllowed cs tokens := by
  constructor
  · rintro rfl
    fun_induction scan keywords start signAllowed cs with
    | case1 start signAllowed => exact .nil start signAllowed
    | case2 start signAllowed c rest hblank ih => exact .blank hblank ih
    | case3 start signAllowed c rest hblank kind n hextent text ih =>
      have hreads := reads_extent keywords signAllowed (Bool.eq_false_iff.mpr hblank) rest
      rw [hextent] at hreads
      have hscans := Scans.token hreads ih
      rwa [List.cons_append, List.take_append_drop] at hscans
  · intro h
    induction h with
    | nil start signAllowed => rw [scan]
    | blank hblank _ ih => rw [scan, if_pos hblank, ih]
    | token hreads _ ih =>
      obtain ⟨c, r, rfl, hc⟩ := hreads.exists_cons
      rw [List.cons_append, scan, if_neg (Bool.eq_false_iff.mp hc), extent_of_reads hreads]
      dsimp only
      rw [List.take_left, List.drop_left, ih]

theorem tokenize_iff {text : String} :
    tokenize keywords text = tokens ↔ Scans keywords 0 true text.toList tokens :=
  scan_iff

/-- Each token is read where it stands. -/
theorem Scans.mem (h : Scans keywords start signAllowed cs tokens) {t : Token} (ht : t ∈ tokens) :
    ∃ before w after allowed, cs = before ++ w ++ after ∧ t.text = String.ofList w ∧
      t.start = start + String.utf8Len before ∧ Reads keywords (allowed = true) w after t.kind := by
  induction h with
  | nil => cases ht
  | @blank start _ c cs _ _ _ ih =>
    obtain ⟨before, w, after, allowed, rfl, htext, hstart, hreads⟩ := ih ht
    refine ⟨c :: before, w, after, allowed, rfl, htext, ?_, hreads⟩
    rw [hstart, String.utf8Len_cons]
    omega
  | @token start allowed w after kind tokens hreads _ ih =>
    rcases List.mem_cons.mp ht with rfl | ht
    · exact ⟨[], w, after, allowed, rfl, rfl, rfl, hreads⟩
    · obtain ⟨before, w', after, allowed, rfl, htext, hstart, hreads⟩ := ih ht
      refine ⟨w ++ before, w', after, allowed, by simp, htext, ?_, hreads⟩
      rw [hstart, String.utf8Len_append, String.utf8ByteSize_ofList]
      omega

/-- A token takes one byte at least. -/
theorem Scans.start_lt_stop (h : Scans keywords start signAllowed cs tokens) {t : Token}
    (ht : t ∈ tokens) : start ≤ t.start ∧ t.start < t.stop := by
  obtain ⟨before, w, after, _, -, htext, hstart, hreads⟩ := h.mem ht
  obtain ⟨c, r, rfl, -⟩ := hreads.exists_cons
  have := c.utf8Size_pos
  rw [stop, htext, hstart, String.utf8ByteSize_ofList, String.utf8Len_cons]
  omega

/-- Each token ends before the next one begins. -/
theorem Scans.ordered (h : Scans keywords start signAllowed cs tokens) :
    tokens.Pairwise fun s t => s.stop ≤ t.start := by
  induction h with
  | nil => exact .nil
  | blank _ _ ih => exact ih
  | token _ hrest ih => exact .cons (fun t ht => (hrest.start_lt_stop ht).1) ih

/-- No two tokens end at the same place. -/
theorem Scans.eq_of_stop (h : Scans keywords start signAllowed cs tokens) {s t : Token}
    (hs : s ∈ tokens) (ht : t ∈ tokens) (hstop : s.stop = t.stop) : s = t := by
  have hlt : tokens.Pairwise fun s t => s.stop < t.stop := by
    refine h.ordered.imp_of_mem fun _ hb hle => ?_
    exact Nat.lt_of_le_of_lt hle (h.start_lt_stop hb).2
  refine List.Pairwise.forall_of_forall_of_flip (R := fun s t => s.stop = t.stop → s = t)
    (fun _ _ _ => rfl) (hlt.imp ?_) (hlt.imp ?_) hs ht hstop
  · exact fun hab heq => absurd heq hab.ne
  · exact fun hab heq => absurd heq hab.ne'

end InputScript.Token
