import InputScript.Command.Prepare
import InputScript.Proofs.Key.Naming

/-!
# `InputScript.Proofs.Key.Joining`: names of keys joined by plus signs

A chord is split at the plus signs before its parts are read as keys, and a key may have a plus sign
in its own name: the plus key has, and a function key may have one in front of its number. Each
other name passes through the splitting, with whatever modifiers stand in front.

* `Key.Named.of_plus_mem`: the names with a plus sign in them.
* `Chord.ofParts_ok_iff`: which parts make up which chord.
* `Chord.parse_joined`: names of modifiers and what stands behind them, as one chord.
* `Chord.joined_key_read`: the name of a key behind names of modifiers.
* `Chord.parse_name`: chords are read back from the name that is shown for them.
-/

set_option autoImplicit false

namespace InputScript

open Number Text

/-! ### Plus signs -/

/-- Trimming keeps what is no blank. -/
theorem mem_trim_iff {c : Char} (h : isBlank c = false) {cs : List Char} :
    c ∈ trim cs ↔ c ∈ cs := by
  obtain ⟨before, after, hbefore, hafter, hsplit⟩ := exists_trim_eq cs
  have hnot {gap : List Char} (hgap : IsGap gap) : c ∉ gap := by
    intro hmem
    rw [hgap c hmem] at h
    cases h
  constructor
  · intro hc
    rw [hsplit]
    simp [hc]
  · intro hc
    rw [hsplit] at hc
    simpa [hnot hbefore, hnot hafter] using hc

/-- A plus sign is no blank. -/
theorem IsGap.plus_notMem {gap : List Char} (h : IsGap gap) : '+' ∉ gap := by
  intro hplus
  have hblank := h '+' hplus
  cases hblank

/-- No part between plus signs holds one. -/
theorem plus_notMem_of_mem_splitOn {cs part : List Char} (h : part ∈ cs.splitOn '+') :
    '+' ∉ part := by
  induction cs generalizing part with
  | nil =>
    rw [List.splitOn_nil, List.mem_singleton] at h
    simp [h]
  | cons c cs ih =>
    rw [List.splitOn_cons_eq_if_modifyHead] at h
    obtain ⟨first, rest, hsplit⟩ := List.exists_cons_of_ne_nil (List.splitOn_ne_nil '+' cs)
    rw [hsplit] at h ih
    split at h
    · rcases List.mem_cons.mp h with rfl | h
      · exact List.not_mem_nil
      · exact ih h
    · rename_i hplus
      rcases List.mem_cons.mp h with rfl | h
      · have hfirst := ih List.mem_cons_self
        simpa [hfirst] using fun heq => hplus (by simp [← heq])
      · exact ih (List.mem_cons_of_mem _ h)

/-- What is a plus sign but for the blanks around it has two blank parts. -/
theorem splitOn_of_trim_eq {cs : List Char} (h : trim cs = ['+']) :
    ∃ before after, IsGap before ∧ IsGap after ∧ cs.splitOn '+' = [before, after] := by
  obtain ⟨before, after, hbefore, hafter, hsplit⟩ := exists_trim_eq cs
  refine ⟨before, after, hbefore, hafter, ?_⟩
  rw [hsplit, h, List.append_assoc, List.singleton_append,
    List.splitOn_append_cons_self_of_not_mem hbefore.plus_notMem,
    List.splitOn_eq_singleton hafter.plus_notMem]

/-- The first of the joined texts ends at the first plus sign. -/
theorem splitOn_joined {texts : List String} (h : ∀ text ∈ texts, '+' ∉ text.toList)
    (last : String) :
    ("+".intercalate (texts ++ [last])).toList.splitOn '+' =
      texts.map String.toList ++ last.toList.splitOn '+' := by
  induction texts with
  | nil => rw [List.nil_append, String.intercalate_singleton]; rfl
  | cons text texts ih =>
    obtain ⟨htext, hrest⟩ := List.forall_mem_cons.mp h
    have hjoined : ("+".intercalate (text :: texts ++ [last])).toList =
        text.toList ++ '+' :: ("+".intercalate (texts ++ [last])).toList := by
      rw [List.cons_append, String.intercalate_cons_of_ne_nil (by simp)]
      simp
    rw [hjoined, List.splitOn_append_cons_self_of_not_mem htext, ih hrest]
    rfl

/-- A plus sign in a number without a minus sign is its first character. -/
theorem head?_of_unsigned? {bound n : Nat} {cs : List Char}
    (h : unsigned? bound (String.ofList cs) = some n) (hplus : '+' ∈ cs) : cs.head? = some '+' := by
  obtain ⟨hdigits, -⟩ := Option.filter_eq_some_iff.mp h
  rw [String.toList_ofList] at hdigits
  split at hdigits
  · rfl
  · have hdigit := (natural?_eq_some_iff.mp hdigits).2.1 '+' hplus
    cases hdigit

namespace Key

/-- A name with a plus sign is that of the plus key, or of a function key with a plus sign in front
of its number. -/
theorem Named.of_plus_mem {w : List Char} {key : Key} (h : Named w key) (hplus : '+' ∈ w) :
    (w = ['+'] ∧ key = .char '+') ∨
      ∃ f digits n, w = f :: '+' :: digits ∧ f ≠ '+' ∧ key = .function n := by
  cases h with
  | char c =>
    rw [List.mem_singleton] at hplus
    exact .inl (hplus ▸ ⟨rfl, rfl⟩)
  | word _ _ hw =>
    have hnone := (names_plain _ (mem_names_of_lookup hw)).2.1
    rw [String.toList_ofList, plus_mem_lower_iff] at hnone
    exact absurd hplus hnone
  | function f digits n hf hn =>
    have hletter : f ≠ '+' := by
      rintro rfl
      cases hf
    have hmem : '+' ∈ digits := (List.mem_cons.mp hplus).resolve_left hletter.symm
    have hfirst := head?_of_unsigned? hn (plus_mem_lower_iff.mpr hmem)
    cases digits with
    | nil => cases hfirst
    | cons d digits =>
      have hlower : '+' ∈ lower [d] := List.mem_singleton.mpr (Option.some.inj hfirst).symm
      obtain rfl : '+' = d := List.mem_singleton.mp (plus_mem_lower_iff.mp hlower)
      exact .inr ⟨f, digits, n, rfl, hletter, rfl⟩

/-- Only a plus sign names the plus key. -/
theorem Named.eq_plus {w : List Char} (h : Named w (.char '+')) : w = ['+'] := by
  generalize hkey : Key.char '+' = key at h
  cases h with
  | char c =>
    have hupper := Key.char.inj hkey
    have hlower : '+' ∈ lower [c] := by
      simp [lower, ← Char.toLower_toUpper_eq_toLower c, ← hupper]
    rw [List.mem_singleton.mp (plus_mem_lower_iff.mp hlower)]
  | word _ _ hw => exact absurd hkey.symm ((names_hasName _ (mem_names_of_lookup hw)).2 '+')
  | function => cases hkey

/-- The texts that name the plus key. -/
theorem trim_eq_plus_iff {s : String} {key : Key} (h : parse s = .ok key) :
    trim s.toList = ['+'] ↔ key = .char '+' := by
  have hnamed := parse_ok_iff.mp h
  constructor
  · intro htrim
    have hplus : '+' ∈ trim s.toList := htrim ▸ List.mem_singleton_self _
    rcases hnamed.of_plus_mem hplus with ⟨-, hchar⟩ | ⟨f, digits, n, hname, -⟩
    · exact hchar
    · rw [htrim] at hname
      cases hname
  · rintro rfl
    exact hnamed.eq_plus

/-- Apart from those of the plus key, the texts with a plus sign in them name function keys. -/
theorem function_of_plus_mem {s : String} {key : Key} (h : parse s = .ok key)
    (hplus : '+' ∈ s.toList) (hne : key ≠ .char '+') :
    ∃ f digits n, trim s.toList = f :: '+' :: digits ∧ f ≠ '+' ∧ key = .function n :=
  ((parse_ok_iff.mp h).of_plus_mem ((mem_trim_iff (by decide)).mpr hplus)).resolve_left
    fun hchar => hne hchar.2

/-- No name of a modifier has a plus sign. -/
theorem Named.plus_notMem {w : List Char} {key : Key} (h : Named w key)
    (hmodifier : key.isModifier = true) : '+' ∉ w := by
  intro hplus
  rcases h.of_plus_mem hplus with ⟨-, rfl⟩ | ⟨_, _, _, -, -, rfl⟩ <;> cases hmodifier

/-- No name but that of the plus key has a plus sign in it. -/
theorem HasName.plus_notMem {key : Key} (h : key.HasName) (hne : key ≠ .char '+') :
    '+' ∉ key.name.toList := by
  cases key with
  | char c =>
    have hc : '+' ≠ c := fun heq => hne (heq ▸ rfl)
    simpa [name] using hc
  | function n =>
    obtain ⟨hlow, hhigh⟩ := h
    interval_cases n <;> decide
  | _ => decide

/-- A modifier has a name. -/
theorem hasName_of_isModifier {key : Key} (h : key.isModifier = true) : key.HasName := by
  cases key with
  | char | function => cases h
  | _ => trivial

/-- Whether a text names a modifier key. -/
def NamesModifier (text : String) (key : Key) : Prop :=
  parse text = .ok key ∧ key.isModifier = true

theorem NamesModifier.plus_notMem {text : String} {key : Key} (h : NamesModifier text key) :
    '+' ∉ text.toList := by
  rw [← mem_trim_iff (by decide)]
  exact (parse_ok_iff.mp h.1).plus_notMem h.2

end Key

namespace Chord

/-! ### The parts of a chord -/

theorem modifier_ok_iff {part : List Char} {key : Key} : modifier part = .ok key ↔
    Key.ofName (trim part) = .ok key ∧ key.isModifier = true := by
  rw [modifier]
  cases Key.ofName (trim part) with
  | error => simp
  | ok found =>
    by_cases hmodifier : found.isModifier = true
    · simp only [hmodifier, if_true, Except.ok.injEq]
      exact ⟨fun h => ⟨h, h ▸ hmodifier⟩, And.left⟩
    · simp only [hmodifier, Bool.false_eq_true, if_false, Except.ok.injEq]
      exact iff_of_false (by simp) fun h => hmodifier (h.1 ▸ h.2)

/-- A part that is no modifier decides the error if all before it are. -/
theorem ofParts_cons_error {part : List Char} {error : KeyError} (h : modifier part = .error error)
    {rest : List (List Char)} (hrest : rest ≠ []) : ofParts (part :: rest) = .error error := by
  obtain ⟨next, rest, rfl⟩ := List.exists_cons_of_ne_nil hrest
  rw [ofParts]
  · rw [h]
  · simp

/-- Modifiers in front are held around whatever the rest is. -/
theorem ofParts_append {parts : List (List Char)} {keys : List Key}
    (h : List.Forall₂ (fun part key => modifier part = .ok key) parts keys)
    {rest : List (List Char)} (hrest : rest ≠ []) :
    ofParts (parts ++ rest) =
      (ofParts rest).map fun chord => ⟨keys ++ chord.modifiers, chord.key⟩ := by
  induction h with
  | nil =>
    rw [List.nil_append]
    cases ofParts rest <;> rfl
  | @cons part key parts keys hpart _ ih =>
    rw [List.cons_append, ofParts]
    · rw [hpart, ih]
      cases ofParts rest <;> rfl
    · simp [hrest]

/-- A chord is read from the parts that name its modifiers in order, and a last one that names its
key. -/
theorem ofParts_ok_iff {parts : List (List Char)} {chord : Chord} :
    ofParts parts = .ok chord ↔ ∃ mods last, parts = mods ++ [last] ∧
      List.Forall₂ (fun part key => modifier part = .ok key) mods chord.modifiers ∧
      Key.ofName (trim last) = .ok chord.key := by
  constructor
  · intro h
    induction parts generalizing chord with
    | nil => cases h
    | cons part rest ih =>
      by_cases hrest : rest = []
      · subst hrest
        rw [ofParts] at h
        split at h
        · cases h
        · rename_i key hkey
          cases h
          exact ⟨[], part, rfl, .nil, hkey⟩
      · rw [ofParts] at h
        · split at h
          · cases h
          · cases h
          · rename_i held inner hheld hinner
            cases h
            obtain ⟨mods, last, rfl, hmods, hlast⟩ := ih hinner
            exact ⟨part :: mods, last, rfl, .cons hheld hmods, hlast⟩
        · exact hrest
  · rintro ⟨mods, last, rfl, hmods, hlast⟩
    rw [ofParts_append hmods (List.cons_ne_nil last []), ofParts, hlast]
    simp [Except.map]

/-! ### Joined names -/

/-- The two parts of a plus sign between blanks are no chord. -/
theorem ofParts_of_trim_eq {cs : List Char} (h : trim cs = ['+']) :
    ofParts (cs.splitOn '+') = .error .empty := by
  obtain ⟨before, after, hbefore, -, hsplit⟩ := splitOn_of_trim_eq h
  rw [hsplit]
  refine ofParts_cons_error ?_ (List.cons_ne_nil after [])
  rw [modifier, hbefore.trim_eq_nil]
  rfl

/-- A letter before a plus sign is no modifier. -/
theorem ofParts_of_signed {cs digits : List Char} {f : Char} (hname : trim cs = f :: '+' :: digits)
    (hf : f ≠ '+') :
    ofParts (cs.splitOn '+') = .error (.notModifier (String.ofList (cs.takeWhile (· ≠ '+')))) := by
  obtain ⟨front, back, hfront, -, hsplit⟩ := exists_trim_eq cs
  have hcs : cs = (front ++ [f]) ++ '+' :: (digits ++ back) := by
    rw [hsplit, hname]
    simp
  have hnone : '+' ∉ front ++ [f] := by simp [hfront.plus_notMem, hf.symm]
  have hbefore : cs.takeWhile (· ≠ '+') = front ++ [f] := by
    have hpass : ∀ c ∈ front ++ [f], decide (c ≠ '+') = true :=
      fun c hc => decide_eq_true fun heq => hnone (heq ▸ hc)
    rw [hcs, List.takeWhile_append_of_pos hpass]
    simp
  have hletter : trim (front ++ [f]) = [f] := by
    have hblank := (trimmed_trim cs).first f (by rw [hname]; rfl)
    have hpad := trim_pad hfront (List.forall_mem_nil _) [f]
    rw [List.append_nil] at hpad
    rw [hpad, trim_eq_self] <;> simpa using hblank
  rw [hbefore, hcs, List.splitOn_append_cons_self_of_not_mem hnone]
  refine ofParts_cons_error ?_ (List.splitOn_ne_nil '+' _)
  rw [modifier, hletter]
  rfl

/-- What stands behind names of modifiers is read on its own, and the modifiers are held around it.
But nothing is special about a plus sign that stands alone there. -/
theorem parse_joined {texts : List String} {keys : List Key}
    (h : List.Forall₂ Key.NamesModifier texts keys) (hne : texts ≠ []) (s : String) :
    parse ("+".intercalate (texts ++ [s])) =
      (ofParts (s.toList.splitOn '+')).map fun chord => ⟨keys ++ chord.modifiers, chord.key⟩ := by
  have hplus : ∀ text ∈ texts, '+' ∉ text.toList :=
    ((List.forall₂_and_left texts keys).mp (h.imp fun _ _ hkey => ⟨hkey.plus_notMem, hkey⟩)).1
  have hmods : List.Forall₂ (fun part key => modifier part = .ok key)
      (texts.map String.toList) keys := by
    rw [List.forall₂_map_left_iff]
    exact h.imp fun _ _ hkey => modifier_ok_iff.mpr hkey
  have hsplit := splitOn_joined hplus s
  have hnot : trim ("+".intercalate (texts ++ [s])).toList ≠ ['+'] := by
    intro htrim
    obtain ⟨before, after, hbefore, -, hparts⟩ := splitOn_of_trim_eq htrim
    rw [hsplit] at hparts
    -- The first text would be blank, but it names a modifier.
    cases h with
    | nil => exact hne rfl
    | @cons text key _ _ hfirst _ =>
      have htext : text.toList = before := (List.cons.inj hparts).1
      have hkey := hfirst.1
      rw [Key.parse, htext, hbefore.trim_eq_nil] at hkey
      cases hkey
  rw [parse, if_neg hnot, hsplit, ofParts_append hmods (List.splitOn_ne_nil '+' s.toList)]

/-- What becomes of a text that names a key, as the last part of a chord. -/
theorem ofParts_splitOn {s : String} {key : Key} (h : Key.parse s = .ok key) :
    ofParts (s.toList.splitOn '+') =
      if '+' ∉ s.toList then .ok ⟨[], key⟩
      else if key = .char '+' then .error .empty
      else .error (.notModifier (String.ofList (s.toList.takeWhile (· ≠ '+')))) := by
  split
  · rename_i hplus
    rw [List.splitOn_eq_singleton hplus, ofParts, show Key.ofName (trim s.toList) = .ok key from h]
  · rename_i hplus
    rw [not_not] at hplus
    split
    · rename_i hchar
      exact ofParts_of_trim_eq ((Key.trim_eq_plus_iff h).mpr hchar)
    · rename_i hchar
      obtain ⟨f, digits, n, hname, hf, -⟩ := Key.function_of_plus_mem h hplus hchar
      exact ofParts_of_signed hname hf

/-- A text without a plus sign, behind names of modifiers, is the key that they are held around. -/
theorem parse_joined_of_plus_notMem {texts : List String} {keys : List Key}
    (h : List.Forall₂ Key.NamesModifier texts keys) {s : String} {key : Key}
    (hkey : Key.parse s = .ok key) (hplus : '+' ∉ s.toList) :
    parse ("+".intercalate (texts ++ [s])) = .ok ⟨keys, key⟩ := by
  have hlast := ofParts_splitOn hkey
  rw [if_pos hplus] at hlast
  cases h with
  | nil =>
    have hnot : trim s.toList ≠ ['+'] := by
      intro htrim
      exact hplus ((mem_trim_iff (by decide)).mp (htrim ▸ List.mem_singleton_self _))
    rw [List.nil_append, String.intercalate_singleton, parse, if_neg hnot, hlast]
  | cons hfirst hrest =>
    rw [parse_joined (.cons hfirst hrest) (List.cons_ne_nil _ _), hlast]
    simp [Except.map]

/-- A text with a plus sign that names a key, behind names of modifiers, is a chord only if it is
the plus key and stands alone. -/
theorem parse_joined_of_plus_mem {texts : List String} {keys : List Key}
    (h : List.Forall₂ Key.NamesModifier texts keys) {s : String} {key : Key}
    (hkey : Key.parse s = .ok key) (hplus : '+' ∈ s.toList) :
    parse ("+".intercalate (texts ++ [s])) =
      if key = .char '+' then if texts = [] then .ok ⟨[], key⟩ else .error .empty
      else .error (.notModifier (String.ofList (s.toList.takeWhile (· ≠ '+')))) := by
  have hlast := ofParts_splitOn hkey
  rw [if_neg (not_not.mpr hplus)] at hlast
  cases h with
  | nil =>
    rw [List.nil_append, String.intercalate_singleton, parse, if_pos rfl]
    split
    · rename_i htrim
      have hchar := (Key.trim_eq_plus_iff hkey).mp htrim
      rw [if_pos hchar, hchar]
    · rename_i htrim
      rw [hlast, if_neg (mt (Key.trim_eq_plus_iff hkey).mpr htrim),
        if_neg (mt (Key.trim_eq_plus_iff hkey).mpr htrim)]
  | @cons text _ texts _ hfirst hrest =>
    have hne := List.cons_ne_nil text texts
    rw [parse_joined (.cons hfirst hrest) hne, hlast, if_neg hne]
    split <;> rfl

/-- The texts that are read alike as a key and as a chord. -/
theorem parse_alone_iff {s : String} {key : Key} (hkey : Key.parse s = .ok key) :
    parse s = .ok ⟨[], key⟩ ↔ '+' ∉ s.toList ∨ key = .char '+' := by
  by_cases hplus : '+' ∈ s.toList
  · have hread := parse_joined_of_plus_mem .nil hkey hplus
    rw [List.nil_append, String.intercalate_singleton, if_pos rfl] at hread
    rw [hread]
    split <;> simp [*]
  · have hread := parse_joined_of_plus_notMem .nil hkey hplus
    rw [List.nil_append, String.intercalate_singleton] at hread
    simp [hread, hplus]

/-- What is read as a chord has modifiers in front and a key with a name, which is the plus key only
if it stands alone. -/
theorem parse_ok {s : String} {chord : Chord} (h : parse s = .ok chord) :
    (∀ key ∈ chord.modifiers, key.isModifier = true) ∧ chord.key.HasName ∧
      (chord.key = .char '+' → chord.modifiers = []) := by
  rw [parse] at h
  split at h
  · cases h
    exact ⟨List.forall_mem_nil _, ⟨rfl, rfl⟩, fun _ => rfl⟩
  · obtain ⟨mods, last, hparts, hmods, hlast⟩ := ofParts_ok_iff.mp h
    have hnamed := Key.ofName_ok_iff.mp hlast
    refine ⟨?_, hnamed.hasName (trimmed_trim last), ?_⟩
    · have hboth := hmods.flip.imp fun key part (hkey : modifier part = .ok key) =>
        And.intro (isModifier_of_modifier hkey) hkey
      exact ((List.forall₂_and_left chord.modifiers mods).mp hboth).1
    · intro hchar
      -- The last part is the plus key, but it holds no plus sign.
      have hmem : last ∈ s.toList.splitOn '+' := by simp [hparts]
      rw [hchar] at hnamed
      have hplus : '+' ∈ trim last := hnamed.eq_plus ▸ List.mem_singleton_self _
      exact absurd ((mem_trim_iff (by decide)).mp hplus) (plus_notMem_of_mem_splitOn hmem)

/-- The name under which a chord is shown: those of its keys, joined by plus signs. -/
def name (chord : Chord) : String :=
  "+".intercalate (chord.modifiers.map Key.name ++ [chord.key.name])

/-- A chord is read back from its name, if its keys have one and the plus key stands alone. -/
theorem parse_name {chord : Chord} (hmods : ∀ key ∈ chord.modifiers, key.isModifier = true)
    (hkey : chord.key.HasName) (hplus : chord.key = .char '+' → chord.modifiers = []) :
    parse chord.name = .ok chord := by
  obtain ⟨modifiers, key⟩ := chord
  by_cases hchar : key = .char '+'
  · obtain rfl : modifiers = [] := hplus hchar
    subst hchar
    rfl
  · have hnames : List.Forall₂ Key.NamesModifier (modifiers.map Key.name) modifiers := by
      rw [List.forall₂_map_left_iff, List.forall₂_same]
      exact fun held hheld =>
        ⟨(Key.hasName_of_isModifier (hmods held hheld)).parse_name, hmods held hheld⟩
    exact parse_joined_of_plus_notMem hnames hkey.parse_name (hkey.plus_notMem hchar)

/-! ### Reading what was joined, and joining what was read -/

/-- A text that names a key is read behind names of modifiers as that key with the modifiers around
it, as long as it has no plus sign in it. The plus key is read only without modifiers, and a
function key with a plus sign in front of its number is not read at all. So a key that can be held
down and let go can be pressed as well in the first two cases, but not in the last. -/
theorem joined_key_read {texts : List String} {keys : List Key}
    (hmods : List.Forall₂ Key.NamesModifier texts keys) {s : String} {key : Key}
    (hkey : Key.parse s = .ok key) :
    ('+' ∉ s.toList → parse ("+".intercalate (texts ++ [s])) = .ok ⟨keys, key⟩) ∧
    (key = .char '+' → parse ("+".intercalate (texts ++ [s])) =
      if texts = [] then .ok ⟨[], key⟩ else .error .empty) ∧
    ('+' ∈ s.toList → key ≠ .char '+' → (∃ n, key = .function n) ∧
      parse ("+".intercalate (texts ++ [s])) =
        .error (.notModifier (String.ofList (s.toList.takeWhile (· ≠ '+'))))) ∧
    ∀ scope : Scope, scope.paramD 0 = s →
      Builtin.keyDown.prepare scope = .ok ⟨scope.params, .keyDown key⟩ ∧
      Builtin.keyUp.prepare scope = .ok ⟨scope.params, .keyUp key⟩ ∧
      (Builtin.keyPress.prepare scope = .ok ⟨scope.params, .keyPress ⟨[], key⟩⟩ ↔
        '+' ∉ s.toList ∨ key = .char '+') := by
  refine ⟨parse_joined_of_plus_notMem hmods hkey, ?_, ?_, ?_⟩
  · intro hchar
    have hplus : '+' ∈ s.toList := by
      have htrim := (Key.trim_eq_plus_iff hkey).mpr hchar
      exact (mem_trim_iff (by decide)).mp (htrim ▸ List.mem_singleton_self _)
    rw [parse_joined_of_plus_mem hmods hkey hplus, if_pos hchar]
  · intro hplus hchar
    obtain ⟨_, _, n, -, -, hfunction⟩ := Key.function_of_plus_mem hkey hplus hchar
    refine ⟨⟨n, hfunction⟩, ?_⟩
    rw [parse_joined_of_plus_mem hmods hkey hplus, if_neg hchar]
  · intro scope hs
    have hscope : scope.key = .ok key := by
      rw [Scope.key, hs, hkey]
    refine ⟨?_, ?_, ?_⟩
    · rw [Builtin.prepare, hscope]
      rfl
    · rw [Builtin.prepare, hscope]
      rfl
    · rw [← parse_alone_iff hkey, Builtin.prepare, Scope.chord, hs]
      cases parse s with
      | error => exact iff_of_false (by rintro ⟨⟩) (by rintro ⟨⟩)
      | ok chord => simp [bind, Except.bind, pure, Except.pure]

/-- Two modifiers around a function key. -/
theorem joined_key_read_two :
    List.Forall₂ Key.NamesModifier ["Ctrl", "shiftkey"] [.control, .shift] ∧
      Key.parse " f05 " = .ok (.function 5) ∧
      parse ("+".intercalate (["Ctrl", "shiftkey"] ++ [" f05 "])) =
        .ok ⟨[.control, .shift], .function 5⟩ := by
  have hmods : List.Forall₂ Key.NamesModifier ["Ctrl", "shiftkey"] [.control, .shift] :=
    .cons ⟨rfl, rfl⟩ (.cons ⟨rfl, rfl⟩ .nil)
  have hkey : Key.parse " f05 " = .ok (.function 5) := rfl
  exact ⟨hmods, hkey, (joined_key_read hmods hkey).1 (by decide)⟩

/-- The plus key is not read behind a modifier, and a function key with a plus sign in front of its
number is not read as a chord at all. -/
theorem plus_sign_splits_key :
    Key.NamesModifier "Ctrl" .control ∧
      Key.parse "+" = .ok (.char '+') ∧ parse "Ctrl++" = .error .empty ∧
      Key.parse "f+5" = .ok (.function 5) ∧ parse "f+5" = .error (.notModifier "f") ∧
      ¬ ∀ (texts : List String) (keys : List Key), List.Forall₂ Key.NamesModifier texts keys →
        ∀ (s : String) (key : Key), Key.parse s = .ok key →
          parse ("+".intercalate (texts ++ [s])) = .ok ⟨keys, key⟩ := by
  refine ⟨⟨rfl, rfl⟩, rfl, rfl, rfl, rfl, ?_⟩
  intro hall
  have hread := hall [] [] .nil "f+5" (.function 5) rfl
  have hsplit : parse "f+5" = .error (.notModifier "f") := rfl
  rw [List.nil_append, String.intercalate_singleton, hsplit] at hread
  cases hread

/-- What is shown for a key or a chord that was read is read as the same again. The key was written
in any case and with any blanks around it, and it is one that has a name: no blank, no lower-case
letter and no function key but `F1` to `F24`. The keys in front of a chord are modifiers. -/
theorem shown_names_read_back (s : String) :
    (∀ key, Key.parse s = .ok key →
      Key.parse key.name = .ok key ∧
      (∀ c, key = .char c → isBlank c = false ∧ c.isLower = false) ∧
      (∀ n, key = .function n → 1 ≤ n ∧ n ≤ 24) ∧
      ∀ (t : String) (before after : List Char), sameName t s = true → IsGap before →
        IsGap after → Key.parse (String.ofList (before ++ t.toList ++ after)) = .ok key) ∧
    ∀ chord, parse s = .ok chord →
      (∀ key ∈ chord.modifiers, key.isModifier = true) ∧ parse chord.name = .ok chord := by
  constructor
  · intro key hkey
    have hnamed := Key.parse_ok_iff.mp hkey
    have hname : key.HasName := hnamed.hasName (trimmed_trim _)
    refine ⟨hname.parse_name, ?_, ?_, ?_⟩
    · rintro c rfl
      exact hname
    · rintro n rfl
      exact hname
    · intro t before after hcase hbefore hafter
      rw [Key.parse_ok_iff, String.toList_ofList, trim_pad hbefore hafter]
      refine hnamed.of_lower ?_
      rw [← trim_lower, sameName_iff.mp hcase, trim_lower]
  · intro chord hchord
    obtain ⟨hmods, hkey, hplus⟩ := parse_ok hchord
    exact ⟨hmods, parse_name hmods hkey hplus⟩

/-- A key and a chord in unusual spellings. -/
theorem shown_names_read_back_spelled :
    (Key.parse "pgUP" = .ok .pageUp ∧ Key.parse "  PGup\t" = .ok .pageUp) ∧
      parse "win+ controlKEY +f024" = .ok ⟨[.metaKey, .control], .function 24⟩ ∧
      parse (name ⟨[.metaKey, .control], .function 24⟩) =
        .ok ⟨[.metaKey, .control], .function 24⟩ := by
  have hkey : Key.parse "pgUP" = .ok .pageUp := rfl
  have hchord : parse "win+ controlKEY +f024" = .ok ⟨[.metaKey, .control], .function 24⟩ := rfl
  refine ⟨⟨hkey, ?_⟩, hchord, ((shown_names_read_back _).2 _ hchord).2⟩
  exact ((shown_names_read_back "pgUP").1 _ hkey).2.2.2 "PGup" [' ', ' '] ['\t'] (by decide)
    (by decide) (by decide)

end Chord

end InputScript
