import InputScript.Proofs.Folder.ReadBack
import InputScript.Proofs.Json.Written
import InputScript.Settings

/-!
# `InputScript.Proofs.Settings.Saved`: saved settings are loaded again

The settings are written with every list and every object over several lines. The reader of each
kind takes what the writer of that kind gives: `takes_renderList` for lists and
`takes_renderFields` for objects, whose fields have to be given one by one (`Fills`). The rest
follows the structure of the settings.

* `takes_renderScript`, `takes_render`: a script and the settings.
* `load_saved`: loading what was saved gives equal settings, whatever file they are saved to.
-/

set_option autoImplicit false

namespace InputScript

namespace Settings

open Json

variable {α β : Type}

/-! ### Several lines -/

/-- The margin of the lines inside a list or an object. -/
def margin (indent : String) : List Char :=
  indent.toList ++ [' ', ' ']

/-- The margin consists of blanks if the indentation does. -/
theorem isSpace_margin {indent : String} (h : IsSpace indent.toList) : IsSpace (margin indent) := by
  intro c hc
  rcases List.mem_append.mp hc with hc | hc
  · exact h c hc
  · have hblank : c = ' ' := by simpa using hc
    rw [hblank]
    decide

/-- Lines that all begin alike: what they begin with stands in front of the first line and behind
every line end. -/
theorem toList_lines {line : β → String} {front : List Char} {inner : β → List Char}
    (h : ∀ b, (line b).toList = front ++ inner b) (b : β) (bs : List β) :
    (",\n".intercalate ((b :: bs).map line)).toList =
      front ++ (',' :: '\n' :: front).intercalate ((b :: bs).map inner) := by
  have hcomma : ",\n".toList = [',', '\n'] := by decide
  rw [String.toList_intercalate, hcomma]
  induction bs generalizing b with
  | nil => simp [h]
  | cons c bs ih =>
    specialize ih c
    simp only [List.map_cons] at ih ⊢
    rw [List.intercalate_cons_cons, List.intercalate_cons_cons, ih, h b]
    simp only [List.append_assoc, List.cons_append, List.nil_append]

/-! ### Lists -/

section List

variable {r : Reader α} {print : α → String} (hprint : ∀ a, r.Takes (print a).toList a)

include hprint

/-- Elements with a comma and blanks between them. -/
theorem writesElements_intercalate {blanks space : List Char} (hblanks : IsSpace blanks)
    (hspace : IsSpace space) (a : α) (as : List α) :
    Reader.WritesElements r
      ((',' :: blanks).intercalate ((a :: as).map fun a => (print a).toList) ++ space)
      (a :: as) := by
  induction as generalizing a with
  | nil =>
    rw [List.map_singleton, List.intercalate_singleton]
    exact .last (hprint a) hspace
  | cons b as ih =>
    have hcons := Reader.WritesElements.cons (hprint a) isSpace_nil hblanks (ih b)
    rw [List.map_cons, List.map_cons, List.intercalate_cons_cons]
    simp only [List.append_assoc, List.cons_append]
    exact hcons

/-- The reader of lists takes what is written for a list. -/
theorem takes_renderList {indent : String} (hindent : IsSpace indent.toList) (as : List α) :
    (Reader.list r).Takes (renderList indent (as.map print)).toList as := by
  cases as with
  | nil =>
    have htext : (renderList indent ([].map print)).toList = '[' :: ([] ++ [']']) := by
      simp [renderList]
    rw [htext]
    exact Reader.takes_list_nil r isSpace_nil
  | cons a as =>
    have hblanks : IsSpace ('\n' :: margin indent) := (isSpace_margin hindent).cons (by decide)
    have hline (a : α) :
        (indent ++ "  " ++ print a).toList = margin indent ++ (print a).toList := by
      simp [margin]
    have htext : (renderList indent ((a :: as).map print)).toList =
        '[' :: ('\n' :: margin indent ++
          (((',' :: '\n' :: margin indent).intercalate ((a :: as).map fun a => (print a).toList) ++
            '\n' :: indent.toList) ++ [']'])) := by
      have hlines := toList_lines hline a as
      rw [renderList, if_neg (by simp), List.map_map]
      simp only [String.toList_append, Function.comp_def, hlines]
      simp
    rw [htext]
    exact Reader.takes_list hblanks
      (writesElements_intercalate hprint hblanks (hindent.cons (by decide)) a as)

end List

/-! ### Records -/

/-- Members fill a record, starting from the fields that are seen already and the values so far:
each sets a field that was not seen, and its key needs no escapes. -/
inductive Fills (fields : List (RecordField α)) :
    List String → α → List (String × String) → α → Prop where
  | nil {seen : List String} {a : α} : Fills fields seen a [] a
  | cons {seen : List String} {key value : String} {members : List (String × String)}
      {f : RecordField α} {a b c : α}
      (hfield : fields.find? (fun field => field.name == key) = some f)
      (hseen : key ∉ seen) (hkey : Text.encode key.toList = key.toList)
      (hvalue : (f.reader a).Takes value.toList b)
      (hmembers : Fills fields (key :: seen) b members c) :
      Fills fields seen a ((key, value) :: members) c

/-- A member as it is written, behind the quote in front of its key. -/
def memberText (m : String × String) : List Char :=
  m.1.toList ++ '"' :: ':' :: ' ' :: m.2.toList

/-- Members with a comma and blanks between them. -/
theorem Fills.writesMembers {fields : List (RecordField α)} {seen : List String} {a b : α}
    {m : String × String} {ms : List (String × String)} (h : Fills fields seen a (m :: ms) b)
    {blanks space : List Char} (hblanks : IsSpace blanks) (hspace : IsSpace space) :
    Reader.WritesMembers fields seen a
      ((',' :: (blanks ++ ['"'])).intercalate ((m :: ms).map memberText) ++ space) b := by
  have hblank : IsSpace [' '] := isSpace_nil.cons (by decide)
  induction ms generalizing seen a m with
  | nil =>
    cases h with
    | @cons _ key value _ f _ b' _ hfield hseen hkey hvalue hmembers =>
      cases hmembers
      have hmember := Reader.WritesMember.field hfield hseen isSpace_nil hblank hvalue
      rw [hkey] at hmember
      rw [List.map_singleton, List.intercalate_singleton]
      exact .last hmember hspace
  | cons next ms ih =>
    cases h with
    | @cons _ key value _ f _ b' _ hfield hseen hkey hvalue hmembers =>
      have hmember := Reader.WritesMember.field hfield hseen isSpace_nil hblank hvalue
      rw [hkey] at hmember
      have hcons := Reader.WritesMembers.cons hmember isSpace_nil hblanks (ih hmembers)
      rw [List.map_cons, List.map_cons, List.intercalate_cons_cons]
      simp only [List.append_assoc, List.cons_append, List.nil_append, memberText] at hcons ⊢
      exact hcons

/-- The reader of a record takes what is written for its fields. -/
theorem takes_renderFields {fields : List (RecordField α)} {default a : α} {indent : String}
    (hindent : IsSpace indent.toList) {m : String × String} {ms : List (String × String)}
    (h : Fills fields [] default (m :: ms) a) :
    (Reader.record fields default).Takes (renderFields indent (m :: ms)).toList a := by
  have hblanks : IsSpace ('\n' :: margin indent) := (isSpace_margin hindent).cons (by decide)
  have hline (m : String × String) : (indent ++ "  \"" ++ m.1 ++ "\": " ++ m.2).toList =
      (margin indent ++ ['"']) ++ memberText m := by
    simp [margin, memberText]
  have htext : (renderFields indent (m :: ms)).toList =
      '\x7b' :: ('\n' :: margin indent ++ '"' ::
        (((',' :: ('\n' :: margin indent ++ ['"'])).intercalate ((m :: ms).map memberText) ++
          '\n' :: indent.toList) ++ ['\x7d'])) := by
    have hlines := toList_lines hline m ms
    rw [renderFields]
    simp only [String.toList_append, hlines]
    simp
  rw [htext]
  exact Reader.takes_record hblanks (h.writesMembers hblanks (hindent.cons (by decide)))

/-! ### The settings -/

/-- A field is set to the value that its reader takes. -/
theorem Fills.set {fields : List (RecordField α)} {seen : List String} {a c : α} {b : β}
    {name value : String} {members : List (String × String)} {reader : Reader β} {set : α → β → α}
    (hfield : fields.find? (fun field => field.name == name) = some (.of name reader set))
    (hseen : name ∉ seen) (hname : Text.encode name.toList = name.toList)
    (hvalue : reader.Takes value.toList b)
    (hmembers : Fills fields (name :: seen) (set a b) members c) :
    Fills fields seen a ((name, value) :: members) c :=
  .cons hfield hseen hname (hvalue.map (set a)) hmembers

/-- A hotkey is taken from its text, or from a null. -/
theorem takes_hotkey (hotkey : Option String) :
    (Reader.nullable .text).Takes
      (match hotkey with
        | none => "null"
        | some hotkey => Text.render hotkey : String).toList hotkey := by
  cases hotkey with
  | none => exact Reader.takes_null .text
  | some hotkey =>
    apply (Reader.takes_text hotkey).some
    simp [Text.render]

/-- The reader of scripts takes what is written for a script. -/
theorem takes_renderScript (s : SavedScript) :
    (Reader.record scriptFields .default).Takes (renderScript s).toList s := by
  apply takes_renderFields (by decide)
  apply Fills.set rfl (by decide) (by decide) (Reader.takes_text s.name)
  apply Fills.set rfl (by decide) (by decide) (Reader.takes_text s.script)
  apply Fills.set rfl (by decide) (by decide) (takes_hotkey s.hotkey)
  apply Fills.set rfl (by decide) (by decide) (Reader.takes_natural64 s.lineDelayMillis)
  exact .nil

/-- The reader of settings takes what is written for settings. -/
theorem takes_render (s : Settings) : (Reader.record fields .default).Takes s.render.toList s := by
  apply takes_renderFields (by decide)
  apply Fills.set rfl (by decide) (by decide)
    (takes_renderList takes_renderScript (by decide) s.scripts)
  apply Fills.set rfl (by decide) (by decide) (Reader.takes_natural64 s.startDelayMillis)
  exact .nil

/-- Settings are read as they were written. -/
theorem parse_render (s : Settings) : parse s.render = .ok s :=
  readAll_of_takes (takes_render s)

/-- Whatever the settings hold, loading the text that they are saved as gives them again. A file
that they were saved to is read back as that text, whichever folder and path it is. -/
theorem load_saved (s : Settings) (path : String) :
    load path (.ok s.render) = .ok s ∧
    ∀ folder after : Folder, folder.write path s.render = .ok after →
      load path (after.read path) = .ok s := by
  have hload : load path (.ok s.render) = .ok s := by
    simp only [load, parse_render]
  refine ⟨hload, ?_⟩
  intro folder after hwrite
  rw [Folder.read_of_write hwrite]
  exact hload

/-- A script with characters that need escapes, a hotkey and the longest delay, and a script with
nothing in it, saved to a new file. -/
theorem load_saved_escapes :
    let s : Settings :=
      ⟨[⟨"a \"b\" \\", "wait 1\n\x01\x7f\té\u2028", some "", 18446744073709551615⟩, .default],
        18446744073709551615⟩
    let folder : Folder := ⟨[], []⟩
    folder.write "saved.json" s.render = .ok (folder.put ["saved.json"] s.render) ∧
      load "saved.json" ((folder.put ["saved.json"] s.render).read "saved.json") = .ok s := by
  intro s folder
  have hwrite (text : String) :
      folder.write "saved.json" text = .ok (folder.put ["saved.json"] text) := by rfl
  exact ⟨hwrite s.render, (load_saved s "saved.json").2 folder _ (hwrite s.render)⟩

end Settings

end InputScript
