import InputScript.Command.Prepare
import InputScript.Proofs.Source.Spelling
import InputScript.Proofs.Text.Bytes

/-!
# `InputScript.Proofs.Source.Slicing`: parameters cut out of a text at byte places

The reader of parameters takes a text apart character by character. The same can be done with
places in the text: one pass over the characters, each with the byte it begins at, finds where an
item starts and stops, the text is sliced there, and a slice between double quotes goes to a
function of its own, which looks at the quotes once more. This can go wrong in more ways: a slice
may begin or end inside a character, it may not be in quotes, and a backslash may be the last thing
in it. None of this happens, and what is left to go wrong is an open quote.

What ties the pass to the function behind it is `endsActive`, the state of both: whether the
character before is a backslash that takes the next character as it is.

* `split`: the program on places.
* `endsActive`, `isBody_iff`, `closing_eq_none_iff`: where a quotation ends.
* `Reads`: the items of a text from left to right, up to a quoted one without an end.
* `holds_of_reads`: the slices are those items, where they stand.
* `splitsAtItems`: the program is the reader of parameters, and where it fails.
-/

set_option autoImplicit false

namespace InputScript

open Text

namespace Slicing

/-! ### The program on places -/

/-- Why a text is not split. -/
inductive Fault where
  | unclosedQuote
  /-- What should be in quotes is not. -/
  | notQuoted (text : String)
  /-- A slice begins or ends inside a character. -/
  | offBoundary (start stop : Nat)
deriving DecidableEq, Repr

/-- The wording of a fault. A slice off the boundaries breaks the program off without one. -/
def Fault.message? : Fault → Option String
  | .unclosedQuote => some ParamError.unclosedQuote.message
  | .notQuoted text => some s!"expected a double-quoted string, got: {text}"
  | .offBoundary _ _ => none

/-- Where the first double quote stands that no backslash hides, and what is behind it. -/
def findQuote (escaped : Bool) : List (Nat × Char) → Option (Nat × List (Nat × Char))
  | [] => none
  | (i, c) :: rest =>
    if escaped then findQuote false rest
    else if c = '\\' then findQuote true rest
    else if c = '"' then some (i, rest)
    else findQuote false rest

/-- Where the first blank stands, or else the text of `size` bytes ends, and what is there. -/
def findBlank (size : Nat) : List (Nat × Char) → Nat × List (Nat × Char)
  | [] => (size, [])
  | (i, c) :: rest => if isBlank c then (i, (i, c) :: rest) else findBlank size rest

theorem length_findQuote_lt {escaped : Bool} {cs rest : List (Nat × Char)} {stop : Nat}
    (h : findQuote escaped cs = some (stop, rest)) : rest.length < cs.length := by
  fun_induction findQuote escaped cs with
  | case1 => cases h
  | case2 i c r ih => exact Nat.lt_succ_of_lt (ih h)
  | case3 _ i r _ ih => exact Nat.lt_succ_of_lt (ih h)
  | case4 =>
    cases h
    exact Nat.lt_succ_self _
  | case5 _ i c r _ _ _ ih => exact Nat.lt_succ_of_lt (ih h)

theorem length_findBlank_le (size : Nat) (cs : List (Nat × Char)) :
    (findBlank size cs).2.length ≤ cs.length := by
  fun_induction findBlank size cs with
  | case1 => exact Nat.le_refl _
  | case2 => exact Nat.le_refl _
  | case3 i c r _ ih => exact Nat.le_succ_of_le ih

/-- A slice of a text: the byte it begins at, and the one behind it. -/
structure Slice where
  start : Nat
  stop : Nat
  quoted : Bool
deriving DecidableEq, Repr

/-- What a pass over a text finds: slices, and whether it ends in an open quote behind them. -/
structure Found where
  slices : List Slice
  isOpen : Bool
deriving DecidableEq, Repr

def Found.cons (slice : Slice) (found : Found) : Found :=
  { found with slices := slice :: found.slices }

/-- Goes over a text of `size` bytes. -/
def find (size : Nat) (cs : List (Nat × Char)) : Found :=
  match cs with
  | [] => ⟨[], false⟩
  | (start, c) :: r =>
    if isBlank c then find size r
    else if c = '"' then
      match _h : findQuote false r with
      | none => ⟨[], true⟩
      -- The quote takes one byte and belongs to the slice.
      | some (stop, rest) => .cons ⟨start, stop + 1, true⟩ (find size rest)
    else
      let word := findBlank size r
      .cons ⟨start, word.1, false⟩ (find size word.2)
termination_by cs.length
decreasing_by
  all_goals simp only [List.length_cons]
  · omega
  · have := length_findQuote_lt _h
    omega
  · have := length_findBlank_le size r
    omega

/-- The slices of a text. -/
def found (text : String) : Found :=
  find text.utf8ByteSize (places 0 text.toList)

/-- What stands between two places of a text. -/
def slice (text : String) (start stop : Nat) : Except Fault String :=
  match cut? text start stop with
  | some piece => .ok piece
  | none => .error (.offBoundary start stop)

section

-- What becomes of a backslash at the end of a quoted text.
variable (trailing : Except Fault (List Char))

/-- The text that a quoted body stands for. -/
def unescape : List Char → Except Fault (List Char)
  | [] => .ok []
  | ['\\'] => trailing
  | '\\' :: c :: r => (unescape r).map (Item.unescaped c :: ·)
  | c :: r => (unescape r).map (c :: ·)

/-- Reads a text in double quotes. -/
def parseQuoted (text : String) : Except Fault String :=
  let core := String.ofList (trim text.toList)
  if core.utf8ByteSize < 2 ∨ core.toList.head? ≠ some '"' ∨ core.toList.getLast? ≠ some '"' then
    .error (.notQuoted core)
  else do
    let body ← slice core 1 (core.utf8ByteSize - 1)
    let value ← unescape trailing body.toList
    return String.ofList value

/-- The parameter that a slice stands for. -/
def Slice.value (text : String) (s : Slice) : Except Fault String := do
  let piece ← slice text s.start s.stop
  if s.quoted then parseQuoted trailing piece else return piece

/-- Splits a text into parameters. An open quote is behind all the slices, so what is wrong with
one of them comes first. -/
def split (text : String) : Except Fault (List String) := do
  let params ← (found text).slices.mapM (Slice.value trailing text)
  if (found text).isOpen then throw .unclosedQuote
  return params

end

end Slicing

/-! ### Where a quotation ends -/

namespace Item

/-- Whether what follows an opening quote ends in an active backslash, which is one that no active
backslash stands before. -/
def endsActive (cs : List Char) : Bool :=
  cs.foldl (fun active c => !active && c == '\\') false

/-- Each double quote of a text has an active backslash before it. -/
def QuotesHidden (cs : List Char) : Prop :=
  ∀ front back, cs = front ++ '"' :: back → endsActive front = true

theorem endsActive_escaped (c : Char) (cs : List Char) :
    endsActive ('\\' :: c :: cs) = endsActive cs := by
  simp [endsActive]

theorem endsActive_plain {c : Char} (h : c ≠ '\\') (cs : List Char) :
    endsActive (c :: cs) = endsActive cs := by
  have hc : (c == '\\') = false := beq_false_of_ne h
  simp [endsActive, hc]

theorem quotesHidden_escaped {c : Char} {cs : List Char} :
    QuotesHidden ('\\' :: c :: cs) ↔ QuotesHidden cs := by
  constructor
  · rintro h front back rfl
    rw [← endsActive_escaped c]
    exact h ('\\' :: c :: front) back rfl
  · rintro h front back heq
    match front with
    | [] => cases heq
    | [d] =>
      cases heq
      rfl
    | d :: e :: front =>
      cases heq
      rw [endsActive_escaped]
      exact h front back rfl

theorem quotesHidden_plain {c : Char} {cs : List Char} (hescape : c ≠ '\\') (hquote : c ≠ '"') :
    QuotesHidden (c :: cs) ↔ QuotesHidden cs := by
  constructor
  · rintro h front back rfl
    rw [← endsActive_plain hescape]
    exact h (c :: front) back rfl
  · rintro h front back heq
    cases front with
    | nil =>
      cases heq
      exact absurd rfl hquote
    | cons d front =>
      cases heq
      rw [endsActive_plain hescape]
      exact h front back rfl

/-- What is neither a backslash at the end nor one with a character behind it is no backslash. -/
theorem ne_backslash {c : Char} {r : List Char} (hlast : c = '\\' → r = [] → False)
    (hpair : ∀ d rest, c = '\\' → r = d :: rest → False) : c ≠ '\\' := by
  intro hescape
  cases r with
  | nil => exact hlast hescape rfl
  | cons d rest => exact hpair d rest hescape rfl

theorem not_quotesHidden_quote (cs : List Char) : ¬ QuotesHidden ('"' :: cs) :=
  fun h => Bool.false_ne_true (h [] cs rfl)

/-- What stands between an opening quote and the first double quote without an active backslash
before it. -/
structure Closes (body : List Char) : Prop where
  last : endsActive body = false
  hidden : QuotesHidden body

theorem Closes.of_isBody {body : List Char} (h : IsBody body) : Closes body := by
  induction h with
  | nil => exact ⟨rfl, fun front back heq => by simp at heq⟩
  | escaped c _ ih =>
    exact ⟨(endsActive_escaped c _).trans ih.last, quotesHidden_escaped.mpr ih.hidden⟩
  | plain hescape hquote _ ih =>
    exact ⟨(endsActive_plain hescape _).trans ih.last,
      (quotesHidden_plain hescape hquote).mpr ih.hidden⟩

theorem Closes.isBody {body : List Char} (h : Closes body) : IsBody body := by
  fun_induction Item.unescape body with
  | case1 => exact .nil
  | case2 c r ih =>
    exact .escaped c (ih ⟨(endsActive_escaped c r).symm.trans h.last,
      quotesHidden_escaped.mp h.hidden⟩)
  | case3 c r hpair ih =>
    have hescape : c ≠ '\\' := by
      refine ne_backslash ?_ hpair
      -- The last backslash of a body would be active.
      rintro rfl rfl
      cases h.last
    have hquote : c ≠ '"' := by
      rintro rfl
      exact not_quotesHidden_quote r h.hidden
    exact .plain hescape hquote (ih ⟨(endsActive_plain hescape r).symm.trans h.last,
      (quotesHidden_plain hescape hquote).mp h.hidden⟩)

theorem isBody_iff {body : List Char} : IsBody body ↔ Closes body :=
  ⟨Closes.of_isBody, Closes.isBody⟩

/-- A quotation has no end if each double quote in what follows is hidden. -/
theorem closing_eq_none_iff {cs : List Char} : closing cs = none ↔ QuotesHidden cs := by
  fun_induction closing cs with
  | case1 => simp [QuotesHidden]
  | case2 r => simpa using not_quotesHidden_quote r
  | case3 =>
    simp only [true_iff]
    intro front back heq
    cases front with
    | nil => cases heq
    | cons d front => simp at heq
  | case4 c r ih => rw [Option.map_eq_none_iff, ih, quotesHidden_escaped]
  | case5 c r hquote hlast hpair ih =>
    have hescape : c ≠ '\\' := ne_backslash hlast hpair
    rw [Option.map_eq_none_iff, ih, quotesHidden_plain hescape hquote]

end Item

/-! ### The items of a text from left to right -/

/-- `Reads cs is isOpen`: from left to right the text `cs` holds the items `is`, and then it ends
or, if `isOpen`, a double quote begins an item that has no end. -/
inductive Reads : List Char → List Item → Bool → Prop
  | nil : Reads [] [] false
  | unclosed {rest : List Char} : Item.QuotesHidden rest → Reads ('"' :: rest) [] true
  | blank {c : Char} {cs : List Char} {is : List Item} {isOpen : Bool} :
      isBlank c = true → Reads cs is isOpen → Reads (c :: cs) is isOpen
  | quoted {body cs : List Char} {is : List Item} {isOpen : Bool} :
      Item.Closes body → Reads cs is isOpen →
      Reads ('"' :: (body ++ '"' :: cs)) (.quoted body :: is) isOpen
  | bare {word cs : List Char} {is : List Item} {isOpen : Bool} :
      Item.IsBare word → AtBlank cs → Reads cs is isOpen →
      Reads (word ++ cs) (.bare word :: is) isOpen

/-- Every text is read in this way. -/
theorem exists_reads (cs : List Char) : ∃ is isOpen, Reads cs is isOpen := by
  fun_induction items cs with
  | case1 => exact ⟨[], false, .nil⟩
  | case2 c r hblank ih =>
    obtain ⟨is, isOpen, hreads⟩ := ih
    exact ⟨is, isOpen, .blank hblank hreads⟩
  | case3 r hnone _ => exact ⟨[], true, .unclosed (Item.closing_eq_none_iff.mp hnone)⟩
  | case4 r body rest hclosing _ ih =>
    obtain ⟨is, isOpen, hreads⟩ := ih
    obtain ⟨hbody, rfl⟩ := Item.closing_iff.mp hclosing
    exact ⟨.quoted body :: is, isOpen, .quoted (Item.isBody_iff.mp hbody) hreads⟩
  | case5 c r hblank hquote ih =>
    obtain ⟨is, isOpen, hreads⟩ := ih
    have hread := Reads.bare (isBare_takeWhile hblank hquote r) (atBlank_dropWhile r) hreads
    rw [List.cons_append, List.takeWhile_append_dropWhile] at hread
    exact ⟨_, isOpen, hread⟩

/-- The reader of parameters finds the items, or nothing if the last one has no end. -/
theorem Reads.items_eq {cs : List Char} {is : List Item} {isOpen : Bool}
    (h : Reads cs is isOpen) : items cs = if isOpen then none else some is := by
  induction h with
  | nil => rw [items]; rfl
  | unclosed hrest => rw [items_unclosed (Item.closing_eq_none_iff.mpr hrest)]; rfl
  | blank hblank _ ih => rw [items_blank hblank, ih]
  | @quoted _ _ _ isOpen hbody _ ih =>
    rw [items_quoted (Item.isBody_iff.mpr hbody), ih]
    cases isOpen <;> rfl
  | @bare _ _ _ isOpen hword hcs _ ih =>
    rw [items_bare hword hcs, ih]
    cases isOpen <;> rfl

namespace Slicing

/-! ### What the pass finds -/

/-- The quote is found where the quotation ends. -/
theorem findQuote_places (start : Nat) (cs : List Char) :
    findQuote false (places start cs) = (Item.closing cs).map fun (body, rest) =>
      (start + String.utf8Len body, places (start + String.utf8Len body + 1) rest) := by
  fun_induction Item.closing cs generalizing start with
  | case1 => rfl
  | case2 r => rfl
  | case3 => rfl
  | case4 c r ih =>
    have hpass : findQuote false (places start ('\\' :: c :: r)) =
        findQuote false (places (start + '\\'.utf8Size + c.utf8Size) r) := rfl
    rw [hpass, ih, Option.map_map]
    congr 1
    funext found
    simp only [Function.comp_apply, String.utf8Len_cons, Nat.add_assoc, Nat.add_comm,
      Nat.add_left_comm]
  | case5 c r hquote hlast hpair ih =>
    have hescape : c ≠ '\\' := Item.ne_backslash hlast hpair
    have hpass : findQuote false (places start (c :: r)) =
        findQuote false (places (start + c.utf8Size) r) := by
      rw [places, findQuote, if_neg Bool.false_ne_true, if_neg hescape, if_neg hquote]
    rw [hpass, ih, Option.map_map]
    congr 1
    funext found
    simp only [Function.comp_apply, String.utf8Len_cons, Nat.add_assoc, Nat.add_comm,
      Nat.add_left_comm]

/-- A word ends at the next blank. -/
theorem findBlank_places {word cs : List Char} (hword : ∀ c ∈ word, isBlank c = false)
    (hcs : AtBlank cs) (start : Nat) :
    findBlank (start + String.utf8Len (word ++ cs)) (places start (word ++ cs)) =
      (start + String.utf8Len word, places (start + String.utf8Len word) cs) := by
  induction word generalizing start with
  | nil =>
    cases cs with
    | nil => rfl
    | cons c cs => rw [List.nil_append, places, findBlank, if_pos (hcs c rfl)]; rfl
  | cons c word ih =>
    rw [List.forall_mem_cons] at hword
    obtain ⟨hc, hword⟩ := hword
    have hsize : start + String.utf8Len (c :: word ++ cs) =
        start + c.utf8Size + String.utf8Len (word ++ cs) := by
      rw [List.cons_append, String.utf8Len_cons]
      omega
    have hstop : start + String.utf8Len (c :: word) = start + c.utf8Size + String.utf8Len word := by
      rw [String.utf8Len_cons]
      omega
    rw [hsize, hstop, List.cons_append, places, findBlank, if_neg (Bool.eq_false_iff.mp hc),
      ih hword]

/-- Quotes take a byte at either end. -/
theorem utf8Len_quoted (body : List Char) :
    String.utf8Len ('"' :: (body ++ ['"'])) = '"'.utf8Size + String.utf8Len body + 1 := by
  have hquote : '"'.utf8Size = 1 := by decide
  simp only [String.utf8Len_cons, String.utf8Len_append, String.utf8Len_nil, hquote]
  omega

/-- An open quote ends the pass. -/
theorem find_unclosed {rest : List Char} (h : Item.QuotesHidden rest) (size start : Nat) :
    find size (places start ('"' :: rest)) = ⟨[], true⟩ := by
  have hquote : ¬ isBlank '"' = true := by decide
  have hnone : findQuote false (places (start + '"'.utf8Size) rest) = none := by
    rw [findQuote_places, Item.closing_eq_none_iff.mpr h, Option.map_none]
  rw [places, find, if_neg hquote, if_pos rfl]
  split
  · rfl
  · rename_i hsome
    rw [hnone] at hsome
    cases hsome

/-- A quoted item is sliced out with its quotes. -/
theorem find_quoted {body : List Char} (h : Item.Closes body) (size start : Nat)
    (cs : List Char) : find size (places start ('"' :: (body ++ '"' :: cs))) =
      .cons ⟨start, start + String.utf8Len ('"' :: (body ++ ['"'])), true⟩
        (find size (places (start + String.utf8Len ('"' :: (body ++ ['"']))) cs)) := by
  have hquote : ¬ isBlank '"' = true := by decide
  have hsome : findQuote false (places (start + '"'.utf8Size) (body ++ '"' :: cs)) =
      some (start + '"'.utf8Size + String.utf8Len body,
        places (start + '"'.utf8Size + String.utf8Len body + 1) cs) := by
    rw [findQuote_places, Item.closing_body h.isBody, Option.map_some]
  rw [places, find, if_neg hquote, if_pos rfl, utf8Len_quoted]
  split
  · rename_i hnone
    rw [hsome] at hnone
    cases hnone
  · rename_i hfound
    rw [hsome] at hfound
    cases hfound
    simp only [Nat.add_assoc]

/-- A bare item is sliced out up to the next blank. -/
theorem find_bare {word cs : List Char} (hword : Item.IsBare word) (hcs : AtBlank cs)
    (start : Nat) :
    find (start + String.utf8Len (word ++ cs)) (places start (word ++ cs)) =
      .cons ⟨start, start + String.utf8Len word, false⟩
        (find (start + String.utf8Len (word ++ cs)) (places (start + String.utf8Len word) cs)) := by
  obtain ⟨c, word, rfl⟩ := List.exists_cons_of_ne_nil hword.ne_nil
  have hc := hword.noBlank c List.mem_cons_self
  have hquote : ¬ c = '"' := by
    rintro rfl
    exact hword.noQuote rfl
  have hplace (ds : List Char) : start + String.utf8Len (c :: ds) =
      start + c.utf8Size + String.utf8Len ds := by
    rw [String.utf8Len_cons]
    omega
  have hstop := findBlank_places (fun d hd => hword.noBlank d (List.mem_cons_of_mem c hd)) hcs
    (start + c.utf8Size)
  rw [List.cons_append, hplace, hplace, places, find, if_neg (Bool.eq_false_iff.mp hc),
    if_neg hquote]
  dsimp only
  rw [hstop]

/-- A slice of a text that holds an item, as the item is written. -/
inductive Holds (text : String) : Slice → Item → Prop
  | quoted {before body after : List Char} : Item.Closes body →
      text.toList = before ++ '"' :: (body ++ ['"']) ++ after →
      Holds text ⟨String.utf8Len before, String.utf8Len (before ++ '"' :: (body ++ ['"'])), true⟩
        (.quoted body)
  | bare {before word after : List Char} : Item.IsBare word →
      text.toList = before ++ word ++ after →
      Holds text ⟨String.utf8Len before, String.utf8Len (before ++ word), false⟩ (.bare word)

/-- The slices of a text are its items, where they stand. -/
theorem holds_of_reads {text : String} {before cs : List Char} {is : List Item} {isOpen : Bool}
    (h : Reads cs is isOpen) (htext : text.toList = before ++ cs) :
    ∃ slices, List.Forall₂ (Holds text) slices is ∧
      find text.utf8ByteSize (places (String.utf8Len before) cs) = ⟨slices, isOpen⟩ := by
  -- What has been read moves to `before`, so that the places stay those of the whole text.
  induction h generalizing before with
  | nil => exact ⟨[], .nil, by rw [places, find]⟩
  | unclosed hrest => exact ⟨[], .nil, find_unclosed hrest _ _⟩
  | @blank c cs _ _ hblank _ ih =>
    obtain ⟨slices, hslices, hfind⟩ := @ih (before ++ [c]) (by simpa using htext)
    refine ⟨slices, hslices, ?_⟩
    rw [places, find, if_pos hblank, ← hfind]
    simp [String.utf8Len_append]
  | @quoted body cs _ _ hbody _ ih =>
    have hpiece : text.toList = before ++ '"' :: (body ++ ['"']) ++ cs := by simpa using htext
    obtain ⟨slices, hslices, hfind⟩ := ih hpiece
    refine ⟨_, .cons (.quoted hbody hpiece) hslices, ?_⟩
    rw [find_quoted hbody, ← String.utf8Len_append, hfind]
    rfl
  | @bare word cs _ _ hword hcs _ ih =>
    have hpiece : text.toList = before ++ word ++ cs := by simpa using htext
    obtain ⟨slices, hslices, hfind⟩ := ih hpiece
    have hsize : text.utf8ByteSize = String.utf8Len before + String.utf8Len (word ++ cs) := by
      rw [← String.utf8Len_append, ← htext, String.utf8Len_toList]
    refine ⟨_, .cons (.bare hword hpiece) hslices, ?_⟩
    rw [hsize, find_bare hword hcs, ← hsize, ← String.utf8Len_append, hfind]
    rfl

/-! ### What becomes of a slice -/

variable {text : String} {s : Slice} {item : Item}

/-- A slice is not empty and lies between characters. -/
theorem Holds.boundaries (h : Holds text s item) : s.start < s.stop ∧
    String.Pos.Raw.IsValid text ⟨s.start⟩ ∧ String.Pos.Raw.IsValid text ⟨s.stop⟩ := by
  cases h with
  | @quoted before body after _ htext =>
    refine ⟨?_, isValid_utf8Len (htext.trans (List.append_assoc _ _ _)), isValid_utf8Len htext⟩
    dsimp only
    rw [String.utf8Len_append, utf8Len_quoted]
    omega
  | @bare before word after hword htext =>
    refine ⟨?_, isValid_utf8Len (htext.trans (List.append_assoc _ _ _)), isValid_utf8Len htext⟩
    obtain ⟨c, word, rfl⟩ := List.exists_cons_of_ne_nil hword.ne_nil
    have := c.utf8Size_pos
    dsimp only
    rw [String.utf8Len_append, String.utf8Len_cons]
    omega

/-- Between two places of a text stands what is written there. -/
theorem slice_eq {before w after : List Char} (h : text.toList = before ++ w ++ after) :
    slice text (String.utf8Len before) (String.utf8Len (before ++ w)) = .ok (String.ofList w) := by
  rw [slice, cut?_eq h]

/-- The function behind the pass is in step with it: it comes to no backslash at the end. -/
theorem unescape_of_isBody {body : List Char} (h : Item.IsBody body)
    (trailing : Except Fault (List Char)) :
    unescape trailing body = .ok (Item.unescape body) := by
  induction h with
  | nil => rfl
  | escaped c _ ih => rw [unescape, ih]; rfl
  | plain hescape _ _ ih =>
    rw [unescape, ih, Item.unescape]
    · rfl
    · exact fun _ _ h => absurd h hescape
    · exact fun h => absurd h hescape
    · exact fun _ _ h => absurd h hescape

/-- What is in quotes is read. -/
theorem parseQuoted_of_closes {body : List Char} (h : Item.Closes body)
    (trailing : Except Fault (List Char)) :
    parseQuoted trailing (String.ofList ('"' :: (body ++ ['"']))) =
      .ok (String.ofList (Item.unescape body)) := by
  have hlast : ('"' :: (body ++ ['"'])).getLast? = some '"' := by
    rw [← List.cons_append, List.getLast?_concat]
  have htrim : trim ('"' :: (body ++ ['"'])) = '"' :: (body ++ ['"']) := by
    refine trim_eq_self ?_ ?_
    · rintro c ⟨⟩
      decide
    · intro c hc
      rw [hlast] at hc
      cases hc
      decide
  have hquote : '"'.utf8Size = 1 := by decide
  have hsize : (String.ofList ('"' :: (body ++ ['"']))).utf8ByteSize =
      1 + String.utf8Len body + 1 := by
    rw [String.utf8ByteSize_ofList, utf8Len_quoted, hquote]
  have hbody : slice (String.ofList ('"' :: (body ++ ['"']))) 1 (1 + String.utf8Len body) =
      .ok (String.ofList body) := by
    have htext : (String.ofList ('"' :: (body ++ ['"']))).toList = ['"'] ++ body ++ ['"'] := by
      simp
    have hcut := slice_eq htext
    rwa [String.utf8Len_append, String.utf8Len_cons, String.utf8Len_nil, hquote] at hcut
  rw [parseQuoted]
  simp only [String.toList_ofList, htrim, hsize, hlast, List.head?_cons]
  have hquotes : ¬ (1 + String.utf8Len body + 1 < 2 ∨ some '"' ≠ some '"' ∨
      some '"' ≠ some '"') := by
    simp
  rw [if_neg hquotes, Nat.add_sub_cancel, hbody]
  simp only [bind, Except.bind, String.toList_ofList, unescape_of_isBody h.isBody]
  rfl

/-- A slice gives the parameter that its item stands for. -/
theorem Holds.value_eq (h : Holds text s item) (trailing : Except Fault (List Char)) :
    Slice.value trailing text s = .ok item.value := by
  cases h with
  | quoted hbody htext =>
    simp only [Slice.value, slice_eq htext, bind, Except.bind, if_true]
    exact parseQuoted_of_closes hbody trailing
  | bare hword htext =>
    simp only [Slice.value, slice_eq htext, bind, Except.bind]
    rfl

theorem exists_holds {slices : List Slice} {is : List Item}
    (h : List.Forall₂ (Holds text) slices is) (hs : s ∈ slices) : ∃ item, Holds text s item := by
  induction h with
  | nil => cases hs
  | @cons _ item _ _ hhead _ ih =>
    rcases List.mem_cons.mp hs with rfl | hs
    · exact ⟨item, hhead⟩
    · exact ih hs

/-- The slices give the parameters of their items. -/
theorem mapM_value_eq {slices : List Slice} {is : List Item}
    (h : List.Forall₂ (Holds text) slices is) (trailing : Except Fault (List Char)) :
    slices.mapM (Slice.value trailing text) = .ok (is.map Item.value) := by
  induction h with
  | nil => rfl
  | cons hs _ ih => rw [List.mapM_cons, hs.value_eq, ih]; rfl

/-- Splitting a text gives its parameters, or an open quote. -/
theorem split_of_reads {is : List Item} {isOpen : Bool} (h : Reads text.toList is isOpen)
    (trailing : Except Fault (List Char)) :
    split trailing text = if isOpen then .error .unclosedQuote else .ok (is.map Item.value) := by
  obtain ⟨slices, hslices, hfind⟩ := holds_of_reads h (List.nil_append _).symm
  have hfound : found text = ⟨slices, isOpen⟩ := hfind
  rw [split, hfound]
  dsimp only
  rw [mapM_value_eq hslices]
  cases isOpen <;> rfl

/-- What splitting a text comes to, whatever becomes of a backslash at the end of a quoted
text. -/
structure SplitsAtItems (text : String) : Prop where
  /-- The parameters are those that the reader of parameters finds. -/
  reader : ∀ trailing, split trailing text =
    match splitParams text with
    | none => .error .unclosedQuote
    | some params => .ok params
  /-- Every slice is inside the text, and no end of it is inside a character. -/
  boundaries : ∀ s ∈ (found text).slices, s.start < s.stop ∧
    String.Pos.Raw.IsValid text ⟨s.start⟩ ∧ String.Pos.Raw.IsValid text ⟨s.stop⟩
  /-- A slice that goes to the function behind the pass is in two double quotes, with no active
  backslash before the second of them and one before each other, and it is read. -/
  handed : ∀ s ∈ (found text).slices, s.quoted = true → ∃ body,
    slice text s.start s.stop = .ok (String.ofList ('"' :: (body ++ ['"']))) ∧
    Item.Closes body ∧ ∀ trailing,
      parseQuoted trailing (String.ofList ('"' :: (body ++ ['"']))) =
        .ok (String.ofList (Item.unescape body))
  /-- It fails if, from left to right, some quoted item has no end. -/
  fails_iff : ∀ trailing fault, split trailing text = .error fault ↔
    (∃ is, Reads text.toList is true) ∧ fault = .unclosedQuote
  /-- Otherwise each item gives its parameter. -/
  succeeds_iff : ∀ trailing params, split trailing text = .ok params ↔
    ∃ is, Reads text.toList is false ∧ params = is.map Item.value
  message : ∀ trailing fault, split trailing text = .error fault →
    fault.message? = some "unclosed quote"

/-- Splitting a text at places is total and fails only on an open quote. It never slices inside a
character, what it hands to the function behind the pass is in quotes, and what becomes of a
backslash at the end of a quoted text makes no difference. -/
theorem splitsAtItems (text : String) : SplitsAtItems text := by
  obtain ⟨is, isOpen, hreads⟩ := exists_reads text.toList
  have hsplit := split_of_reads hreads
  obtain ⟨slices, hslices, hfind⟩ := holds_of_reads hreads (List.nil_append _).symm
  have hfound : found text = ⟨slices, isOpen⟩ := hfind
  have hholds : ∀ s ∈ (found text).slices, ∃ item, Holds text s item := by
    rw [hfound]
    exact fun s hs => exists_holds hslices hs
  have hfails (trailing : Except Fault (List Char)) (fault : Fault) :
      split trailing text = .error fault ↔
        (∃ is, Reads text.toList is true) ∧ fault = .unclosedQuote := by
    constructor
    · intro hfault
      rw [hsplit] at hfault
      cases isOpen with
      | false => cases hfault
      | true =>
        cases hfault
        exact ⟨⟨is, hreads⟩, rfl⟩
    · rintro ⟨⟨is', hopen⟩, rfl⟩
      exact split_of_reads hopen trailing
  refine ⟨?_, ?_, ?_, hfails, ?_, ?_⟩
  · intro trailing
    rw [hsplit, splitParams, hreads.items_eq]
    cases isOpen <;> rfl
  · intro s hs
    obtain ⟨item, hitem⟩ := hholds s hs
    exact hitem.boundaries
  · intro s hs hquoted
    obtain ⟨item, hitem⟩ := hholds s hs
    cases hitem with
    | quoted hbody htext => exact ⟨_, slice_eq htext, hbody, parseQuoted_of_closes hbody⟩
    | bare => cases hquoted
  · intro trailing params
    constructor
    · intro hparams
      rw [hsplit] at hparams
      cases isOpen with
      | true => cases hparams
      | false =>
        cases hparams
        exact ⟨is, hreads, rfl⟩
    · rintro ⟨is', hclosed, rfl⟩
      exact split_of_reads hclosed trailing
  · intro trailing fault hfault
    obtain ⟨-, rfl⟩ := (hfails trailing fault).mp hfault
    rfl

example : found "é \"b\\\"\"c" = ⟨[⟨0, 2, false⟩, ⟨3, 8, true⟩, ⟨8, 9, false⟩], false⟩ := by
  decide +kernel

end Slicing

end InputScript
