import InputScript.Json.Reader
import InputScript.Proofs.Json.WholeNumber

/-!
# `InputScript.Proofs.Json.Written`: values as they may be written, and their readers

`Reader.Takes` says that a reader takes a text for a value, whatever blanks stand in front of it and
whatever follows it, as long as that is nothing that a number could go on with. For each reader
there are texts that it takes: a text between quotes, the digits of a number, a null, and lists and
objects put together from such texts.

`WritesElements` and `WritesMembers` say how the inside of a list and of an object may be written,
with any blanks between the symbols. Their `run` lemmas go by induction over what is written, and
each step leaves the reader in front of the next element or the next key.

* `takes_text`, `takes_natural64`, `takes_null`, `Takes.some`: single values.
* `takes_list`, `takes_list_nil`: lists.
* `takes_record`: records given as objects, with the fields in any order.
* `readAll_of_takes`: a whole text.
-/

set_option autoImplicit false

namespace InputScript.Json

open Number

variable {α β : Type}

/-! ### Blanks, and what may follow a value -/

/-- A text of blanks only. -/
def IsSpace (cs : List Char) : Prop :=
  ∀ c ∈ cs, isBlank c = true

instance (cs : List Char) : Decidable (IsSpace cs) :=
  decidable_of_iff (cs.all isBlank = true) List.all_eq_true

/-- The empty text has blanks only. -/
theorem isSpace_nil : IsSpace [] := by
  simp [IsSpace]

/-- A blank in front of blanks. -/
theorem IsSpace.cons {b : Char} {space : List Char} (hb : isBlank b = true)
    (hspace : IsSpace space) : IsSpace (b :: space) := by
  intro c hc
  rcases List.mem_cons.mp hc with rfl | hc
  · exact hb
  · exact hspace c hc

/-- Blanks are dropped up to the first character that is none. -/
theorem dropBlanks_append {space : List Char} (hspace : IsSpace space) {c : Char}
    (hc : isBlank c = false) (rest : List Char) :
    dropBlanks (space ++ c :: rest) = c :: rest := by
  apply dropWhile_exact hspace
  intro d hd
  cases hd
  exact hc

/-- Whether a symbol ends a value or stands between two of them. -/
def isSeparator (c : Char) : Bool :=
  c = ',' || c = ']' || c = '\x7d'

/-- A number ends in front of blanks. -/
theorem IsSpace.endsNumber_cons {b : Char} {space : List Char} (h : IsSpace (b :: space))
    (rest : List Char) : EndsNumber (b :: space ++ rest) := by
  intro d hd
  cases hd
  have hblank := h b List.mem_cons_self
  simp only [isBlank, Bool.or_eq_true, decide_eq_true_eq] at hblank
  rcases hblank with ((rfl | rfl) | rfl) | rfl <;> decide

theorem IsSpace.endsNumber {space : List Char} (h : IsSpace space) : EndsNumber space := by
  cases space with
  | nil => simp [EndsNumber]
  | cons b space => simpa using h.endsNumber_cons []

/-- A number ends in front of blanks and in front of a separator. -/
theorem endsNumber_separator {space : List Char} (hspace : IsSpace space) {c : Char}
    (hc : isSeparator c = true) (rest : List Char) : EndsNumber (space ++ c :: rest) := by
  cases space with
  | nil =>
    intro d hd
    cases hd
    simp only [isSeparator, Bool.or_eq_true, decide_eq_true_eq] at hc
    rcases hc with (rfl | rfl) | rfl <;> decide
  | cons b space => exact hspace.endsNumber_cons (c :: rest)

/-- A digit is no blank, and it does not end a list. -/
theorem plain_of_isDigit {d : Char} (hd : isDigit d = true) : isBlank d = false ∧ d ≠ ']' := by
  constructor
  · by_contra hblank
    simp only [isBlank, Bool.not_eq_false, Bool.or_eq_true, decide_eq_true_eq] at hblank
    rcases hblank with ((rfl | rfl) | rfl) | rfl <;> exact absurd hd (by decide)
  · rintro rfl
    exact absurd hd (by decide)

/-! ### Single values -/

namespace Reader

/-- A reader takes a text for a value. The text does not begin with a blank or with the end of a
list. -/
structure Takes (r : Reader α) (cs : List Char) (a : α) : Prop where
  begins : ∃ c rest, cs = c :: rest ∧ isBlank c = false ∧ c ≠ ']'
  run : ∀ space rest, IsSpace space → EndsNumber rest →
    r.run (space ++ (cs ++ rest)) = .ok (a, rest)

/-- A text is taken as it is between quotes. -/
theorem takes_text (s : String) : text.Takes (Text.render s).toList s := by
  have hrender : (Text.render s).toList = '"' :: (Text.encode s.toList ++ ['"']) := by
    rw [Text.render, String.toList_ofList, List.cons_append]
  rw [hrender]
  refine ⟨⟨'"', _, rfl, by decide, by decide⟩, ?_⟩
  intro space rest hspace _
  have hquote := dropBlanks_append hspace (c := '"') (by decide)
    (Text.encode s.toList ++ '"' :: rest)
  simp only [text, List.cons_append, List.append_assoc, List.nil_append, hquote,
    Text.read_encode, String.ofList_toList]

/-- A number of 64 bits is taken as its decimal digits. -/
theorem takes_natural64 (n : UInt64) : natural64.Takes (toString n.toNat).toList n := by
  have htext : (toString n.toNat).toList = Nat.toDigits 10 n.toNat := Nat.toList_repr
  rw [htext]
  have hread := @Numeral.read_toDigits n.toNat n.toNat_lt
  obtain ⟨d, ds, hds⟩ := List.exists_cons_of_ne_nil (Nat.toDigits_ne_nil (b := 10) (n := n.toNat))
  have hdigit : isDigit d = true := isDigit_of_mem_toDigits (n := n.toNat) (by simp [hds])
  have hplain := plain_of_isDigit hdigit
  refine ⟨⟨d, ds, hds, hplain⟩, ?_⟩
  intro space rest hspace hrest
  specialize hread hrest
  rw [hds, List.cons_append] at hread ⊢
  simp only [natural64]
  rw [dropBlanks_append hspace hplain.1]
  dsimp only
  rw [if_pos (by simp [hdigit]), hread]
  dsimp only
  rw [← hds, Numeral.natural64?_toDigits]

/-- What is taken for a value is taken for the value that a function makes of it. -/
theorem Takes.map (f : α → β) {r : Reader α} {cs : List Char} {a : α} (h : r.Takes cs a) :
    (r.map f).Takes cs (f a) := by
  refine ⟨h.begins, ?_⟩
  intro space rest hspace hrest
  simp only [Reader.map]
  rw [h.run space rest hspace hrest]

/-- A null is taken for a missing value. -/
theorem takes_null (r : Reader α) : (nullable r).Takes ['n', 'u', 'l', 'l'] none := by
  refine ⟨⟨'n', _, rfl, by decide, by decide⟩, ?_⟩
  intro space rest hspace _
  simp only [nullable, List.cons_append]
  rw [dropBlanks_append hspace (by decide)]
  rfl

/-- A value is taken where it might be null, unless it begins like a null. -/
theorem Takes.some {r : Reader α} {cs : List Char} {a : α} (h : r.Takes cs a)
    (hnull : cs.head? ≠ some 'n') : (nullable r).Takes cs (some a) := by
  refine ⟨h.begins, ?_⟩
  intro space rest hspace hrest
  have hrun := h.run [] rest isSpace_nil hrest
  obtain ⟨c, tail, rfl, hc, -⟩ := h.begins
  simp only [nullable, List.cons_append] at hrun ⊢
  rw [dropBlanks_append hspace hc]
  split
  · rename_i heq
    cases heq
    exact absurd rfl hnull
  · rw [List.nil_append] at hrun
    rw [hrun]

/-! ### Lists -/

/-- How the inside of a list may be written that is not empty. -/
inductive WritesElements (r : Reader α) : List Char → List α → Prop where
  | last {cs space : List Char} {a : α} (ha : r.Takes cs a) (hspace : IsSpace space) :
      WritesElements r (cs ++ space) [a]
  | cons {cs space space' tail : List Char} {a : α} {as : List α} (ha : r.Takes cs a)
      (hspace : IsSpace space) (hspace' : IsSpace space') (has : WritesElements r tail as) :
      WritesElements r (cs ++ (space ++ ',' :: (space' ++ tail))) (a :: as)

/-- The inside of a list begins with its first element. -/
theorem WritesElements.begins {r : Reader α} {cs : List Char} {as : List α}
    (h : WritesElements r cs as) : ∃ c rest, cs = c :: rest ∧ isBlank c = false ∧ c ≠ ']' := by
  cases h with
  | last ha _ | cons ha _ _ _ =>
    obtain ⟨c, rest, rfl, hc⟩ := ha.begins
    exact ⟨c, _, rfl, hc⟩

/-- A list goes on with the element that is there. -/
theorem elements_item {r : Reader α} {cs rest : List Char} {a : α} {following : Next}
    (hrun : r.run cs = .ok (a, rest)) (hnext : nextElement rest = .ok following) {as : List α}
    {after : List Char} (has : elements r following = .ok (as, after)) :
    elements r (.item cs) = .ok (a :: as, after) := by
  rw [elements]
  split
  · rename_i hrun'
    rw [hrun] at hrun'
    cases hrun'
  · rename_i hrun'
    rw [hrun] at hrun'
    cases hrun'
    split
    · rename_i hnext'
      rw [hnext] at hnext'
      cases hnext'
    · rename_i hnext'
      rw [hnext] at hnext'
      cases hnext'
      rw [has]

/-- Behind an element a bracket ends the list. -/
theorem nextElement_close {space : List Char} (hspace : IsSpace space) (rest : List Char) :
    nextElement (space ++ ']' :: rest) = .ok (.closed rest) := by
  rw [nextElement, dropBlanks_append hspace (by decide)]
  rfl

/-- Behind a comma stands another element. -/
theorem nextElement_comma {space space' : List Char} (hspace : IsSpace space)
    (hspace' : IsSpace space') {c : Char} (hc : isBlank c = false) (hclose : c ≠ ']')
    (rest : List Char) :
    nextElement (space ++ ',' :: (space' ++ c :: rest)) = .ok (.item (c :: rest)) := by
  have hcomma := dropBlanks_append hspace (c := ',') (by decide) (space' ++ c :: rest)
  simp only [nextElement, hcomma, dropBlanks_append hspace' hc]
  split
  · rename_i heq
    cases heq
  · rename_i heq
    cases heq
    exact absurd rfl hclose
  · rfl

/-- The elements of a list are read in their order, up to the end of the list. -/
theorem WritesElements.run {r : Reader α} {cs : List Char} {as : List α}
    (h : WritesElements r cs as) (rest : List Char) :
    elements r (.item (cs ++ ']' :: rest)) = .ok (as, rest) := by
  induction h with
  | @last cs space a ha hspace =>
    have hrun := ha.run [] (space ++ ']' :: rest) isSpace_nil
      (endsNumber_separator hspace (by decide) rest)
    rw [List.append_assoc]
    exact elements_item hrun (nextElement_close hspace rest) (by rw [elements])
  | @cons cs space space' tail a as ha hspace hspace' has ih =>
    obtain ⟨c, others, rfl, hc, hclose⟩ := has.begins
    have hrun := ha.run [] (space ++ ',' :: (space' ++ c :: (others ++ ']' :: rest))) isSpace_nil
      (endsNumber_separator hspace (by decide) _)
    simp only [List.append_assoc, List.cons_append] at ih ⊢
    exact elements_item hrun (nextElement_comma hspace hspace' hc hclose _) ih

/-- A list is read from what comes first behind its bracket. -/
theorem run_list {r : Reader α} {before inside : List Char} {next : Next}
    (hbefore : IsSpace before) (hfirst : firstElement inside = .ok next) :
    (list r).run (before ++ '[' :: inside) = elements r next := by
  simp only [list, dropBlanks_append hbefore (c := '[') (by decide), hfirst]

/-- A list is taken between brackets. -/
theorem takes_list {r : Reader α} {space cs : List Char} {as : List α} (hspace : IsSpace space)
    (h : WritesElements r cs as) : (list r).Takes ('[' :: (space ++ (cs ++ [']']))) as := by
  refine ⟨⟨'[', _, rfl, by decide, by decide⟩, ?_⟩
  intro before rest hbefore _
  have helements := h.run rest
  obtain ⟨c, tail, rfl, hc, hclose⟩ := h.begins
  simp only [List.cons_append, List.append_assoc, List.nil_append] at helements ⊢
  have hfirst : firstElement (space ++ c :: (tail ++ ']' :: rest)) =
      .ok (.item (c :: (tail ++ ']' :: rest))) := by
    rw [firstElement, dropBlanks_append hspace hc]
    split
    · rename_i heq
      cases heq
    · rename_i heq
      cases heq
      exact absurd rfl hclose
    · rfl
  rw [run_list hbefore hfirst]
  exact helements

/-- Brackets with nothing between them are taken for the empty list. -/
theorem takes_list_nil (r : Reader α) {space : List Char} (hspace : IsSpace space) :
    (list r).Takes ('[' :: (space ++ [']'])) [] := by
  refine ⟨⟨'[', _, rfl, by decide, by decide⟩, ?_⟩
  intro before rest hbefore _
  have hfirst : firstElement (space ++ ']' :: rest) = .ok (.closed rest) := by
    rw [firstElement, dropBlanks_append hspace (by decide)]
    rfl
  simp only [List.cons_append, List.append_assoc, List.nil_append]
  rw [run_list hbefore hfirst, elements]

/-! ### Records -/

/-- How a member of an object may be written that sets a field. The text begins behind the quote in
front of the key. -/
inductive WritesMember (fields : List (RecordField α)) (seen : List String) (a : α) (key : String) :
    List Char → α → Prop where
  | field {f : RecordField α} {space space' value : List Char} {b : α}
      (hfield : fields.find? (fun field => field.name == key) = some f)
      (hseen : key ∉ seen) (hspace : IsSpace space) (hspace' : IsSpace space')
      (hvalue : (f.reader a).Takes value b) :
      WritesMember fields seen a key
        (Text.encode key.toList ++ '"' :: (space ++ ':' :: (space' ++ value))) b

/-- How the inside of an object may be written that is not empty. The text begins behind the quote
in front of the first key. -/
inductive WritesMembers (fields : List (RecordField α)) :
    List String → α → List Char → α → Prop where
  | last {seen : List String} {key : String} {cs space : List Char} {a b : α}
      (hb : WritesMember fields seen a key cs b) (hspace : IsSpace space) :
      WritesMembers fields seen a (cs ++ space) b
  | cons {seen : List String} {key : String} {cs space space' tail : List Char} {a b c : α}
      (hb : WritesMember fields seen a key cs b) (hspace : IsSpace space)
      (hspace' : IsSpace space') (hc : WritesMembers fields (key :: seen) b tail c) :
      WritesMembers fields seen a (cs ++ (space ++ ',' :: (space' ++ '"' :: tail))) c

/-- An object goes on with the key that is there. -/
theorem members_item {fields : List (RecordField α)} {seen : List String} {a b : α}
    {cs key afterKey rest : List Char} {following : Next}
    (hkey : Text.read cs = .ok (key, afterKey))
    (hmember : member fields seen a (String.ofList key) afterKey = .ok (b, rest))
    (hnext : nextKey rest = .ok following) :
    members fields seen a (.item cs) =
      members fields (String.ofList key :: seen) b following := by
  rw [members]
  split
  · rename_i hkey'
    rw [hkey] at hkey'
    cases hkey'
  · rename_i hkey'
    rw [hkey] at hkey'
    cases hkey'
    split
    · rename_i hmember'
      rw [hmember] at hmember'
      cases hmember'
    · rename_i hmember'
      rw [hmember] at hmember'
      cases hmember'
      split
      · rename_i hnext'
        rw [hnext] at hnext'
        cases hnext'
      · rename_i hnext'
        rw [hnext] at hnext'
        cases hnext'
        rfl

/-- Behind a value a brace ends the object. -/
theorem nextKey_close {space : List Char} (hspace : IsSpace space) (rest : List Char) :
    nextKey (space ++ '\x7d' :: rest) = .ok (.closed rest) := by
  rw [nextKey, dropBlanks_append hspace (by decide)]
  rfl

/-- Behind a comma stands another key. -/
theorem nextKey_comma {space space' : List Char} (hspace : IsSpace space)
    (hspace' : IsSpace space') (rest : List Char) :
    nextKey (space ++ ',' :: (space' ++ '"' :: rest)) = .ok (.item rest) := by
  have hcomma := dropBlanks_append hspace (c := ',') (by decide) (space' ++ '"' :: rest)
  have hquote := dropBlanks_append hspace' (c := '"') (by decide) rest
  simp only [nextKey, hcomma, hquote]

/-- Between a key and its value stands a colon. -/
theorem colon_append {space : List Char} (hspace : IsSpace space) (rest : List Char) :
    colon (space ++ ':' :: rest) = .ok rest := by
  rw [colon, dropBlanks_append hspace (by decide)]
  rfl

/-- The value of a field that was not seen yet is read into the record. -/
theorem member_field {fields : List (RecordField α)} {seen : List String} {a b : α} {key : String}
    {f : RecordField α} {space space' value rest : List Char}
    (hfield : fields.find? (fun field => field.name == key) = some f) (hseen : key ∉ seen)
    (hspace : IsSpace space) (hspace' : IsSpace space') (hvalue : (f.reader a).Takes value b)
    (hrest : EndsNumber rest) :
    member fields seen a key (space ++ ':' :: (space' ++ (value ++ rest))) = .ok (b, rest) := by
  rw [member, hfield]
  dsimp only
  rw [if_neg (by simpa using hseen), colon_append hspace]
  exact hvalue.run _ _ hspace' hrest

/-- A member is read: its key, and then its value. -/
theorem WritesMember.run {fields : List (RecordField α)} {seen : List String} {a b : α}
    {key : String} {cs : List Char} (h : WritesMember fields seen a key cs b) {rest : List Char}
    (hrest : EndsNumber rest) : ∃ afterKey,
      Text.read (cs ++ rest) = .ok (key.toList, afterKey) ∧
      member fields seen a (String.ofList key.toList) afterKey = .ok (b, rest) := by
  obtain @⟨f, space, space', value, _, hfield, hseen, hspace, hspace', hvalue⟩ := h
  simp only [List.append_assoc, List.cons_append]
  refine ⟨_, Text.read_encode key.toList _, ?_⟩
  rw [String.ofList_toList]
  exact member_field hfield hseen hspace hspace' hvalue hrest

/-- The members of an object are read in their order, up to the end of the object. -/
theorem WritesMembers.run {fields : List (RecordField α)} {seen : List String} {a b : α}
    {cs : List Char} (h : WritesMembers fields seen a cs b) (rest : List Char) :
    members fields seen a (.item (cs ++ '\x7d' :: rest)) = .ok (b, rest) := by
  induction h with
  | @last seen key cs space a b hb hspace =>
    obtain ⟨afterKey, hkey, hmember⟩ :=
      hb.run (endsNumber_separator hspace (c := '\x7d') (by decide) rest)
    rw [List.append_assoc, members_item hkey hmember (nextKey_close hspace rest), members]
  | @cons seen key cs space space' tail a b c hb hspace hspace' _ ih =>
    obtain ⟨afterKey, hkey, hmember⟩ :=
      hb.run (endsNumber_separator hspace (c := ',') (by decide)
        (space' ++ '"' :: (tail ++ '\x7d' :: rest)))
    simp only [List.append_assoc, List.cons_append]
    rw [members_item hkey hmember (nextKey_comma hspace hspace' _), String.ofList_toList]
    exact ih

/-- A record is read from what comes first behind its brace. -/
theorem run_record {fields : List (RecordField α)} {default : α} {before inside : List Char}
    {next : Next} (hbefore : IsSpace before) (hfirst : firstKey inside = .ok next) :
    (record fields default).run (before ++ '\x7b' :: inside) = members fields [] default next := by
  simp only [record, dropBlanks_append hbefore (c := '\x7b') (by decide), hfirst]

/-- Behind the brace stands a key. -/
theorem firstKey_quote {space : List Char} (hspace : IsSpace space) (rest : List Char) :
    firstKey (space ++ '"' :: rest) = .ok (.item rest) := by
  rw [firstKey, dropBlanks_append hspace (by decide)]
  rfl

/-- Behind the brace another one ends the object. -/
theorem firstKey_close {space : List Char} (hspace : IsSpace space) (rest : List Char) :
    firstKey (space ++ '\x7d' :: rest) = .ok (.closed rest) := by
  rw [firstKey, dropBlanks_append hspace (by decide)]
  rfl

/-- A record is taken between braces. -/
theorem takes_record {fields : List (RecordField α)} {default a : α} {space cs : List Char}
    (hspace : IsSpace space) (h : WritesMembers fields [] default cs a) :
    (record fields default).Takes
      ('\x7b' :: (space ++ '"' :: (cs ++ ['\x7d']))) a := by
  refine ⟨⟨'\x7b', _, rfl, by decide, by decide⟩, ?_⟩
  intro before rest hbefore _
  simp only [List.cons_append, List.append_assoc, List.nil_append]
  rw [run_record hbefore (firstKey_quote hspace _)]
  exact h.run rest

end Reader

/-- A whole text is read as the value that a reader takes it for, with blanks around it. -/
theorem readAll_of_takes_between {r : Reader α} {s : String} {before cs after : List Char} {a : α}
    (hs : s.toList = before ++ (cs ++ after)) (hbefore : IsSpace before) (hafter : IsSpace after)
    (h : r.Takes cs a) : readAll r s = .ok a := by
  have hempty : dropBlanks after = [] := by
    have hdrop := dropWhile_exact hafter (r := []) (by simp)
    rwa [List.append_nil] at hdrop
  rw [readAll, hs, h.run before after hbefore hafter.endsNumber]
  dsimp only
  rw [hempty]
  rfl

/-- A whole text is read as the value that a reader takes it for. -/
theorem readAll_of_takes {r : Reader α} {s : String} {a : α} (h : r.Takes s.toList a) :
    readAll r s = .ok a :=
  readAll_of_takes_between (List.append_nil _).symm isSpace_nil isSpace_nil h

end InputScript.Json
