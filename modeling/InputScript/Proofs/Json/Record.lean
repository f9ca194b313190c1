import InputScript.Proofs.Json.Skipped

/-!
# `InputScript.Proofs.Json.Record`: records whose fields are given in any way

An object may give the fields of a record in any order, leave some of them out and have other
members among them. A `Shape` says which fields a record has, `Shape.Object` is an object that gives
none of them twice, and `Object.Writes` is how it may be written: with any blanks between the
symbols and with any escapes in its keys.

The reader goes over the members from left to right, so what it reads depends on their order at
first (`Object.record`). It does not in the end, since each field is given once:
`Object.get_record` says that what is read is the value that is given, or the default.

* `Text.Spells`, `takes_spells`: texts with any escapes.
* `Separated`, `Enclosed`, `takes_enclosed`: lists.
* `Object.takes`: objects.
* `Object.given?_eq_some_iff`, `Object.get_record`: the fields of what is read.
-/

set_option autoImplicit false

namespace InputScript.Json

/-! ### Texts with any escapes -/

namespace Text

/-- `Spells body text`: between two double quotes the text may be written in this way. Where it has
no escape of its own a character may be given by one UTF-16 unit or by two. -/
inductive Spells : List Char → List Char → Prop
  | nil : Spells [] []
  | plain {c : Char} {body text : List Char} : c ≠ '"' → c ≠ '\\' → 0x20 ≤ c.toNat →
      Spells body text → Spells (c :: body) (c :: text)
  | letter {c meant : Char} {body text : List Char} : letter? c = some meant →
      Spells body text → Spells ('\\' :: c :: body) (meant :: text)
  | unit {a b c d : Char} {n : Nat} {body text : List Char} : hexValue? a b c d = some n →
      isHigh n = false → isLow n = false → Spells body text →
      Spells ('\\' :: 'u' :: a :: b :: c :: d :: body) (Char.ofNat n :: text)
  | pair {a b c d e f g h : Char} {high low : Nat} {body text : List Char} :
      hexValue? a b c d = some high → isHigh high = true →
      hexValue? e f g h = some low → isLow low = true → Spells body text →
      Spells ('\\' :: 'u' :: a :: b :: c :: d :: '\\' :: 'u' :: e :: f :: g :: h :: body)
        (Text.pair high low :: text)

/-- Whether a character may stand for itself. -/
def isPlain (c : Char) : Bool :=
  c != '"' && c != '\\' && decide (0x20 ≤ c.toNat)

/-- A text without characters that need escapes may stand as it is. -/
theorem spells_self {cs : List Char} (h : cs.all isPlain = true) : Spells cs cs := by
  induction cs with
  | nil => exact .nil
  | cons c cs ih =>
    simp only [List.all_cons, isPlain, Bool.and_eq_true, bne_iff_ne, decide_eq_true_eq] at h
    obtain ⟨⟨⟨hquote, hescape⟩, hcontrol⟩, h⟩ := h
    exact .plain hquote hescape hcontrol (ih h)

/-- A high unit is not a low one. -/
theorem isLow_of_isHigh {n : Nat} (h : isHigh n = true) : isLow n = false := by
  simp only [isHigh, isLow, Bool.and_eq_true, decide_eq_true_eq, Bool.and_eq_false_iff,
    decide_eq_false_iff_not] at h ⊢
  omega

/-- A text is read however it is spelled. -/
theorem read_of_spells {body text : List Char} (h : Spells body text) (rest : List Char) :
    read (body ++ '"' :: rest) = .ok (text, rest) := by
  induction h with
  | nil => rw [List.nil_append, read]
  | @plain c body text hquote hescape hcontrol _ ih =>
    rw [List.cons_append, read, if_neg (Nat.not_lt.mpr hcontrol), ih]
    · rfl
    · exact hquote
    · exact hescape
  | @letter c meant body text hletter _ ih =>
    have hescape : escape (c :: (body ++ '"' :: rest)) = .ok (meant, body ++ '"' :: rest) := by
      rw [escape, hletter]
      rintro rfl
      cases hletter
    rw [List.cons_append, List.cons_append, read_escape hescape, ih]
    rfl
  | @unit a b c d n body text hvalue hhigh hlow _ ih =>
    have hescape : escape ('u' :: a :: b :: c :: d :: (body ++ '"' :: rest)) =
        .ok (Char.ofNat n, body ++ '"' :: rest) := by
      rw [escape, unit_of_hexValue hvalue]
      simp [hhigh, hlow]
    simp only [List.cons_append]
    rw [read_escape hescape, ih]
    rfl
  | @pair a b c d e f g h high low body text hhigh hishigh hlow hislow _ ih =>
    have hsecond : lowUnit high ('\\' :: 'u' :: e :: f :: g :: h :: (body ++ '"' :: rest)) =
        .ok (Text.pair high low, body ++ '"' :: rest) := by
      simp [lowUnit, word, unit_of_hexValue hlow, hislow]
    have hescape : escape ('u' :: a :: b :: c :: d ::
        '\\' :: 'u' :: e :: f :: g :: h :: (body ++ '"' :: rest)) =
          .ok (Text.pair high low, body ++ '"' :: rest) := by
      rw [escape, unit_of_hexValue hhigh]
      simp [isLow_of_isHigh hishigh, hishigh, hsecond]
    simp only [List.cons_append]
    rw [read_escape hescape, ih]
    rfl

/-- How a text may be written as a value. -/
inductive Writes (s : String) : List Char → Prop
  | mk {body : List Char} : Spells body s.toList → Writes s ('"' :: (body ++ ['"']))

end Text

/-- A text is taken however it is spelled. -/
theorem Text.Writes.takes {s : String} {cs : List Char} (h : Text.Writes s cs) :
    Reader.text.Takes cs s := by
  obtain @⟨body, hbody⟩ := h
  refine ⟨⟨'"', _, rfl, by decide, by decide⟩, ?_⟩
  intro space rest hspace _
  have hquote := dropBlanks_append hspace (c := '"') (by decide) (body ++ '"' :: rest)
  simp only [Reader.text, List.cons_append, List.append_assoc, List.nil_append, hquote,
    Text.read_of_spells hbody, String.ofList_toList]

/-! ### Lists -/

section Lists

variable {α β : Type}

/-- Values one after the other, with commas between them. -/
inductive Separated (w : α → List Char → Prop) : List α → List Char → Prop
  | last {a : α} {cs space : List Char} : w a cs → IsSpace space → Separated w [a] (cs ++ space)
  | more {a : α} {as : List α} {cs space space' tail : List Char} : w a cs → IsSpace space →
      IsSpace space' → Separated w as tail →
      Separated w (a :: as) (cs ++ (space ++ ',' :: (space' ++ tail)))

/-- Values between two symbols. -/
inductive Enclosed (c : Container) (w : α → List Char → Prop) : List α → List Char → Prop
  | empty {space : List Char} : IsSpace space →
      Enclosed c w [] (c.opening :: (space ++ [c.closing]))
  | filled {as : List α} {space cs : List Char} : IsSpace space → Separated w as cs →
      Enclosed c w as (c.opening :: (space ++ (cs ++ [c.closing])))

variable {w : α → List Char → Prop} {r : Reader β} {value : α → β}

/-- A list is taken if its reader takes each element as it is written. -/
theorem Enclosed.takes (hw : ∀ a cs, w a cs → r.Takes cs (value a)) {as : List α}
    {cs : List Char} (h : Enclosed .array w as cs) :
    (Reader.list r).Takes cs (as.map value) := by
  have helements {as : List α} {cs : List Char} (h : Separated w as cs) :
      Reader.WritesElements r cs (as.map value) := by
    induction h with
    | last ha hspace => exact .last (hw _ _ ha) hspace
    | more ha hspace hspace' _ ih => exact .cons (hw _ _ ha) hspace hspace' ih
  cases h with
  | empty hspace => exact Reader.takes_list_nil r hspace
  | filled hspace has => exact Reader.takes_list hspace (helements has)

end Lists

/-! ### Objects -/

/-- A member of an object: a field of the record, or something else under its key. -/
inductive Member (F : Type) where
  | field (f : F)
  | other (key : String)

namespace Member

variable {F : Type}

/-- The field that a member is, if it is one. -/
def field? : Member F → Option F
  | .field f => some f
  | .other _ => none

theorem mem_filterMap_field? {ms : List (Member F)} {f : F} :
    f ∈ ms.filterMap field? ↔ .field f ∈ ms := by
  rw [List.mem_filterMap]
  constructor
  · rintro ⟨g | key, hmem, heq⟩
    · cases heq
      exact hmem
    · cases heq
  · intro hmem
    exact ⟨.field f, hmem, rfl⟩

end Member

/-- The fields that a record may be given: the key of each, how its value may be written, and what
it sets. -/
structure Shape (F α : Type) where
  key : F → String
  Writes : F → List Char → Prop
  set : F → α → α

namespace Shape

variable {F α β γ : Type} (shape : Shape F α)

/-- The key of a member. -/
def memberKey : Member F → String
  | .field f => shape.key f
  | .other key => key

/-- How the value of a member may be written. -/
def WritesValue : Member F → List Char → Prop
  | .field f, cs => shape.Writes f cs
  | .other _, cs => IsJson .value cs

/-- How a member may be written. -/
inductive WritesMember (m : Member F) : List Char → Prop
  | mk {key space space' value : List Char} : Text.Spells key (shape.memberKey m).toList →
      IsSpace space → IsSpace space' → shape.WritesValue m value →
      WritesMember m ('"' :: (key ++ '"' :: (space ++ ':' :: (space' ++ value))))

/-- What a record is with a member. -/
def setMember (a : α) : Member F → α
  | .field f => shape.set f a
  | .other _ => a

/-- The keys of the fields among members. -/
def fieldKeys (ms : List (Member F)) : List String :=
  (ms.filterMap Member.field?).map shape.key

/-- An object that gives no field twice. Its other members may have any other keys, also the same
ones. -/
structure Object where
  members : List (Member F)
  once : (shape.fieldKeys members).Nodup
  others : ∀ key, .other key ∈ members → ∀ f, shape.key f ≠ key

/-- A field of the record, as it is made from a value and as the value is got back. -/
structure Slot (β : Type) where
  make : β → F
  get? : F → Option β
  get?_eq_some_iff : ∀ f b, get? f = some b ↔ f = make b
  key_make : ∀ b b', shape.key (make b) = shape.key (make b')

/-- The reader of a record reads fields of this shape. -/
structure Fits (fields : List (RecordField α)) : Prop where
  field : ∀ f, ∃ field, fields.find? (fun field => field.name == shape.key f) = some field ∧
    ∀ a cs, shape.Writes f cs → (field.reader a).Takes cs (shape.set f a)
  /-- It knows no other keys. -/
  keys : ∀ field ∈ fields, ∃ f, shape.key f = field.name

variable {shape} {fields : List (RecordField α)}

/-- A member that is written without blanks, and without escapes in its key. -/
theorem writesMember_plain {m : Member F} {value : List Char}
    (hkey : (shape.memberKey m).toList.all Text.isPlain = true)
    (hvalue : shape.WritesValue m value) :
    shape.WritesMember m
      ('"' :: ((shape.memberKey m).toList ++ '"' :: ([] ++ ':' :: ([] ++ value)))) :=
  .mk (Text.spells_self hkey) isSpace_nil isSpace_nil hvalue

theorem Fits.find?_eq_none (h : shape.Fits fields) {key : String}
    (hkey : ∀ f, shape.key f ≠ key) :
    fields.find? (fun field => field.name == key) = none := by
  rw [List.find?_eq_none]
  intro field hfield hname
  obtain ⟨f, hf⟩ := h.keys field hfield
  exact hkey f (hf.trans (beq_iff_eq.mp hname))

theorem mem_fieldKeys {ms : List (Member F)} {key : String} :
    key ∈ shape.fieldKeys ms ↔ ∃ f, .field f ∈ ms ∧ shape.key f = key := by
  simp only [fieldKeys, List.mem_map, Member.mem_filterMap_field?]

/-- A member is read: a field into the record, and anything else over it. -/
theorem Fits.member (h : shape.Fits fields) {m : Member F} {cs rest : List Char}
    (hm : shape.WritesMember m cs) (hother : ∀ key, m = .other key → ∀ f, shape.key f ≠ key)
    {seen : List String} (hseen : ∀ f, m = .field f → shape.key f ∉ seen)
    (hrest : EndsNumber rest) (a : α) :
    ∃ tail afterKey, cs = '"' :: tail ∧
      Text.read (tail ++ rest) = .ok ((shape.memberKey m).toList, afterKey) ∧
      Reader.member fields seen a (String.ofList (shape.memberKey m).toList) afterKey =
        .ok (shape.setMember a m, rest) := by
  obtain @⟨key, space, space', value, hkey, hspace, hspace', hvalue⟩ := hm
  refine ⟨_, space ++ ':' :: (space' ++ (value ++ rest)), rfl, ?_, ?_⟩
  · simp only [List.append_assoc, List.cons_append]
    exact Text.read_of_spells hkey _
  · rw [String.ofList_toList]
    cases m with
    | field f =>
      obtain ⟨field, hfind, htakes⟩ := h.field f
      exact Reader.member_field hfind (hseen f rfl) hspace hspace' (htakes a value hvalue) hrest
    | other k =>
      have hskip : skipValue [] (space' ++ (value ++ rest)) = .ok rest :=
        skipValue_of_isJson hvalue hspace' hrest
      rw [memberKey, Reader.member, h.find?_eq_none (hother k rfl)]
      dsimp only
      rw [Reader.colon_append hspace]
      dsimp only
      rw [hskip]
      rfl

/-- The members of an object are read in their order. Each field is new when its turn comes: the
keys that were seen are those of other fields and of no fields. -/
theorem Fits.members (h : shape.Fits fields) {ms : List (Member F)} {cs : List Char}
    (hms : Separated shape.WritesMember ms cs) {seen : List String}
    (honce : (shape.fieldKeys ms).Nodup) (hseen : ∀ key ∈ shape.fieldKeys ms, key ∉ seen)
    (hothers : ∀ key, .other key ∈ ms → ∀ f, shape.key f ≠ key) (rest : List Char) (a : α) :
    ∃ tail, cs = '"' :: tail ∧
      Reader.members fields seen a (.item (tail ++ '\x7d' :: rest)) =
        .ok (ms.foldl shape.setMember a, rest) := by
  induction hms generalizing seen a with
  | @last m cs space hm hspace =>
    have hends : EndsNumber (space ++ '\x7d' :: rest) :=
      endsNumber_separator hspace (by decide) rest
    obtain ⟨tail, afterKey, rfl, hkey, hmember⟩ := h.member hm
      (fun key heq => hothers key (heq ▸ List.mem_cons_self))
      (fun f heq => hseen _ (mem_fieldKeys.mpr ⟨f, heq ▸ List.mem_cons_self, rfl⟩)) hends a
    refine ⟨tail ++ space, rfl, ?_⟩
    rw [List.append_assoc, Reader.members_item hkey hmember (Reader.nextKey_close hspace rest),
      Reader.members]
    rfl
  | @more m ms cs space space' next hm hspace hspace' _ ih =>
    have hnew : (shape.fieldKeys ms).Nodup ∧ shape.memberKey m ∉ shape.fieldKeys ms := by
      cases m with
      | field f => exact (List.nodup_cons.mp honce).symm
      | other k =>
        refine ⟨honce, fun hmem => ?_⟩
        obtain ⟨f, -, hf⟩ := mem_fieldKeys.mp hmem
        exact hothers k List.mem_cons_self f hf
    have hunseen : ∀ key ∈ shape.fieldKeys ms, key ∉ shape.memberKey m :: seen := by
      intro key hkey hmem
      obtain ⟨f, hf, rfl⟩ := mem_fieldKeys.mp hkey
      rcases List.mem_cons.mp hmem with heq | hmem
      · exact hnew.2 (heq ▸ hkey)
      · exact hseen _ (mem_fieldKeys.mpr ⟨f, List.mem_cons_of_mem m hf, rfl⟩) hmem
    obtain ⟨following, rfl, hfollowing⟩ := ih hnew.1 hunseen
      (fun key hmem => hothers key (List.mem_cons_of_mem m hmem)) (shape.setMember a m)
    have hends : EndsNumber (space ++ ',' :: (space' ++ '"' :: (following ++ '\x7d' :: rest))) :=
      endsNumber_separator hspace (by decide) _
    obtain ⟨tail, afterKey, rfl, hkey, hmember⟩ := h.member hm
      (fun key heq => hothers key (heq ▸ List.mem_cons_self))
      (fun f heq => hseen _ (mem_fieldKeys.mpr ⟨f, heq ▸ List.mem_cons_self, rfl⟩)) hends a
    refine ⟨tail ++ (space ++ ',' :: (space' ++ '"' :: following)), rfl, ?_⟩
    simp only [List.append_assoc, List.cons_append]
    rw [Reader.members_item hkey hmember (Reader.nextKey_comma hspace hspace' _),
      String.ofList_toList, hfollowing]
    rfl

/-- The value that a member has for a slot. -/
def Slot.ofMember? (slot : shape.Slot β) : Member F → Option β
  | .field f => slot.get? f
  | .other _ => none

theorem Slot.ofMember?_eq_some_iff (slot : shape.Slot β) {m : Member F} {b : β} :
    slot.ofMember? m = some b ↔ m = .field (slot.make b) := by
  cases m with
  | field f => simp [ofMember?, slot.get?_eq_some_iff]
  | other key => simp [ofMember?]

/-- A field that is among members with its key given once is the only one of that key. -/
theorem field_unique {ms : List (Member F)} (honce : (shape.fieldKeys ms).Nodup) {f g : F}
    (hf : .field f ∈ ms) (hg : .field g ∈ ms) (hkey : shape.key f = shape.key g) : f = g := by
  induction ms with
  | nil => cases hf
  | cons m ms ih =>
    have htail : (shape.fieldKeys ms).Nodup := by
      cases m with
      | field => exact (List.nodup_cons.mp honce).2
      | other => exact honce
    have hhead {x y : F} (hx : .field x = m) (hy : .field y ∈ ms)
        (hxy : shape.key x = shape.key y) : x = y := by
      subst hx
      exact absurd (mem_fieldKeys.mpr ⟨y, hy, hxy.symm⟩) (List.nodup_cons.mp honce).1
    rcases List.mem_cons.mp hf with hf | hf <;> rcases List.mem_cons.mp hg with hg | hg
    · exact Member.field.inj (hf.trans hg.symm)
    · exact hhead hf hg hkey
    · exact (hhead hg hf hkey.symm).symm
    · exact ih htail hf hg

/-- Over members that give no field twice, what is read has what one of them gives for a slot, and
keeps its own if there is none. -/
theorem get_foldl (slot : shape.Slot β) {get : α → γ} {value : β → γ}
    (hget : ∀ f a, get (shape.set f a) = ((slot.get? f).map value).getD (get a))
    {ms : List (Member F)} (honce : (shape.fieldKeys ms).Nodup) (a : α) :
    get (ms.foldl shape.setMember a) =
      ((ms.findSome? slot.ofMember?).map value).getD (get a) := by
  induction ms generalizing a with
  | nil => rfl
  | cons m ms ih =>
    rw [List.foldl_cons, List.findSome?_cons]
    cases m with
    | other => exact ih honce a
    | field f =>
      obtain ⟨hnew, honce⟩ := List.nodup_cons.mp honce
      rw [ih honce, setMember, hget]
      cases hf : slot.get? f with
      | none => simp only [Slot.ofMember?, hf, Option.map_none, Option.getD_none]
      | some b =>
        -- No other member has a value for the slot.
        have hnone : ms.findSome? slot.ofMember? = none := by
          rw [List.findSome?_eq_none_iff]
          intro m hm
          cases hm' : slot.ofMember? m with
          | none => rfl
          | some b' =>
            obtain rfl := slot.ofMember?_eq_some_iff.mp hm'
            obtain rfl := (slot.get?_eq_some_iff f b).mp hf
            exact absurd (mem_fieldKeys.mpr ⟨_, hm, slot.key_make b' b⟩) hnew
        simp only [Slot.ofMember?, hf, hnone, Option.map_none, Option.map_some, Option.getD_none,
          Option.getD_some]

namespace Object

/-- How an object may be written. -/
def Writes (o : shape.Object) (cs : List Char) : Prop :=
  Enclosed .object shape.WritesMember o.members cs

/-- What is read from an object, member by member. -/
def record (o : shape.Object) (default : α) : α :=
  o.members.foldl shape.setMember default

/-- An object is taken however it is written. -/
theorem Writes.takes (hfits : shape.Fits fields) {o : shape.Object} {cs : List Char}
    (h : o.Writes cs) (default : α) :
    (Reader.record fields default).Takes cs (o.record default) := by
  obtain ⟨ms, honce, hothers⟩ := o
  cases h with
  | @empty space hspace =>
    refine ⟨⟨'\x7b', _, rfl, by decide, by decide⟩, ?_⟩
    intro before rest hbefore _
    simp only [Container.opening, Container.closing, List.cons_append, List.append_assoc,
      List.nil_append]
    rw [Reader.run_record hbefore (Reader.firstKey_close hspace rest), Reader.members]
    rfl
  | @filled _ space cs hspace hms =>
    refine ⟨⟨'\x7b', _, rfl, by decide, by decide⟩, ?_⟩
    intro before rest hbefore _
    have hseen : ∀ key ∈ shape.fieldKeys ms, key ∉ ([] : List String) := by simp
    obtain ⟨tail, rfl, hmembers⟩ := hfits.members hms honce hseen hothers rest default
    simp only [Container.opening, Container.closing, List.cons_append, List.append_assoc,
      List.nil_append]
    rw [Reader.run_record hbefore (Reader.firstKey_quote hspace _)]
    exact hmembers

/-- The value that an object gives for a slot. -/
def given? (o : shape.Object) (slot : shape.Slot β) : Option β :=
  o.members.findSome? slot.ofMember?

/-- A value is given if its field is among the members. -/
theorem given?_eq_some_iff (o : shape.Object) (slot : shape.Slot β) {b : β} :
    o.given? slot = some b ↔ .field (slot.make b) ∈ o.members := by
  have hmem {b : β} (h : o.given? slot = some b) : .field (slot.make b) ∈ o.members := by
    obtain ⟨m, hm, heq⟩ := List.exists_of_findSome?_eq_some h
    rwa [slot.ofMember?_eq_some_iff.mp heq] at hm
  refine ⟨hmem, fun h => ?_⟩
  cases hgiven : o.given? slot with
  | none =>
    have hnone := List.findSome?_eq_none_iff.mp hgiven _ h
    rw [slot.ofMember?_eq_some_iff.mpr rfl] at hnone
    cases hnone
  | some b' =>
    have hfield := field_unique o.once (hmem hgiven) h (slot.key_make b' b)
    have hget := (slot.get?_eq_some_iff (slot.make b) b').mpr hfield.symm
    rw [← hget]
    exact (slot.get?_eq_some_iff _ b).mpr rfl

/-- What is read has what the given value stands for, or else the default. -/
theorem get_record_map (o : shape.Object) (slot : shape.Slot β) {get : α → γ} {value : β → γ}
    (hget : ∀ f a, get (shape.set f a) = ((slot.get? f).map value).getD (get a)) (default : α) :
    get (o.record default) = ((o.given? slot).map value).getD (get default) :=
  get_foldl slot hget o.once default

/-- What is read has the value that is given, or else the default. -/
theorem get_record (o : shape.Object) (slot : shape.Slot β) {get : α → β}
    (hget : ∀ f a, get (shape.set f a) = (slot.get? f).getD (get a)) (default : α) :
    get (o.record default) = (o.given? slot).getD (get default) := by
  have hvalue : get (o.record default) = ((o.given? slot).map id).getD (get default) :=
    o.get_record_map slot (by simpa using hget) default
  rwa [Option.map_id_fun, id_eq] at hvalue

/-- The fields that an object gives, in their order. -/
def given (o : shape.Object) : List F :=
  o.members.filterMap Member.field?

theorem mem_given {o : shape.Object} {f : F} : f ∈ o.given ↔ .field f ∈ o.members :=
  Member.mem_filterMap_field?

end Object

end Shape

end InputScript.Json
