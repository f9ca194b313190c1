import InputScript.Proofs.Json.Record
import InputScript.Settings
import Mathlib.Data.Multiset.ZeroCons

/-!
# `InputScript.Proofs.Settings.Partial`: settings that are given in part and in any order

A settings file need not look like one that was saved. Its fields may stand in any order, any of
them may be missing, there may be others among them, and there may be blanks between all symbols.
`Entry` and `Document` are the objects of such a file, and `Entry.saved` and `Document.settings` are
what they stand for: each field has the value that is given for it, or else its default.

Two documents are alike if they say the same: in each object the same fields in some order, with
any others among them, where a null hotkey says as much as none.

* `fits_script`, `fits_settings`: the readers know the fields.
* `Entry.record_eq`, `Document.record_eq`: what is read.
* `Entry.Alike.saved_eq`, `Document.Alike.settings_eq`: alike documents.
* `load_written`: loading a file.
-/

set_option autoImplicit false

namespace InputScript.Settings

open Json

/-! ### Scripts -/

/-- A field of a script with its value. -/
inductive ScriptField where
  | name (name : String)
  | script (text : String)
  | hotkey (words : Option String)
  | lineDelay (millis : UInt64)
deriving DecidableEq

/-- How a whole number is written. -/
def WritesMillis (millis : UInt64) (cs : List Char) : Prop :=
  cs = (toString millis.toNat).toList

/-- The fields of a script. -/
def scriptShape : Shape ScriptField SavedScript where
  key
    | .name _ => "name"
    | .script _ => "script"
    | .hotkey _ => "hotkey"
    | .lineDelay _ => "line_delay_ms"
  Writes
    | .name name, cs => Text.Writes name cs
    | .script text, cs => Text.Writes text cs
    | .hotkey none, cs => cs = ['n', 'u', 'l', 'l']
    | .hotkey (some words), cs => Text.Writes words cs
    | .lineDelay millis, cs => WritesMillis millis cs
  set
    | .name name, s => { s with name := name }
    | .script text, s => { s with script := text }
    | .hotkey words, s => { s with hotkey := words }
    | .lineDelay millis, s => { s with lineDelayMillis := millis }

theorem WritesMillis.takes {millis : UInt64} {cs : List Char} (h : WritesMillis millis cs) :
    Reader.natural64.Takes cs millis :=
  h ▸ Reader.takes_natural64 millis

theorem takes_hotkey_text {words : String} {cs : List Char} (h : Text.Writes words cs) :
    (Reader.nullable .text).Takes cs (some words) := by
  apply h.takes.some
  cases h
  simp

/-- The reader of scripts knows these fields and no others. -/
theorem fits_script : scriptShape.Fits scriptFields := by
  constructor
  · intro f
    cases f with
    | name => exact ⟨_, rfl, fun a cs h => h.takes.map _⟩
    | script => exact ⟨_, rfl, fun a cs h => h.takes.map _⟩
    | hotkey words =>
      refine ⟨_, rfl, fun a cs h => ?_⟩
      cases words with
      | none =>
        obtain rfl := h
        exact (Reader.takes_null .text).map _
      | some words => exact (takes_hotkey_text h).map _
    | lineDelay => exact ⟨_, rfl, fun a cs h => h.takes.map _⟩
  · intro field hfield
    simp only [scriptFields, List.mem_cons, List.not_mem_nil, or_false] at hfield
    rcases hfield with rfl | rfl | rfl | rfl
    · exact ⟨.name "", rfl⟩
    · exact ⟨.script "", rfl⟩
    · exact ⟨.hotkey none, rfl⟩
    · exact ⟨.lineDelay 0, rfl⟩

/-- The object of a script. -/
abbrev Entry := scriptShape.Object

namespace Entry

def nameSlot : scriptShape.Slot String where
  make := .name
  get?
    | .name name => some name
    | _ => none
  get?_eq_some_iff f b := by cases f <;> simp
  key_make _ _ := rfl

def textSlot : scriptShape.Slot String where
  make := .script
  get?
    | .script text => some text
    | _ => none
  get?_eq_some_iff f b := by cases f <;> simp
  key_make _ _ := rfl

def hotkeySlot : scriptShape.Slot (Option String) where
  make := .hotkey
  get?
    | .hotkey words => some words
    | _ => none
  get?_eq_some_iff f b := by cases f <;> simp
  key_make _ _ := rfl

def lineDelaySlot : scriptShape.Slot UInt64 where
  make := .lineDelay
  get?
    | .lineDelay millis => some millis
    | _ => none
  get?_eq_some_iff f b := by cases f <;> simp
  key_make _ _ := rfl

/-- The script that an object stands for. -/
def saved (e : Entry) : SavedScript where
  name := (e.given? nameSlot).getD SavedScript.default.name
  script := (e.given? textSlot).getD SavedScript.default.script
  hotkey := (e.given? hotkeySlot).getD SavedScript.default.hotkey
  lineDelayMillis := (e.given? lineDelaySlot).getD SavedScript.default.lineDelayMillis

/-- What is read from the object is the script that it stands for. -/
theorem record_eq (e : Entry) : e.record .default = e.saved := by
  have hname : (e.record .default).name = e.saved.name :=
    e.get_record nameSlot (by intro f a; cases f <;> rfl) .default
  have hscript : (e.record .default).script = e.saved.script :=
    e.get_record textSlot (by intro f a; cases f <;> rfl) .default
  have hhotkey : (e.record .default).hotkey = e.saved.hotkey :=
    e.get_record hotkeySlot (by intro f a; cases f <;> rfl) .default
  have hmillis : (e.record .default).lineDelayMillis = e.saved.lineDelayMillis :=
    e.get_record lineDelaySlot (by intro f a; cases f <;> rfl) .default
  calc e.record .default
    _ = ⟨(e.record .default).name, (e.record .default).script, (e.record .default).hotkey,
          (e.record .default).lineDelayMillis⟩ := rfl
    _ = e.saved := by rw [hname, hscript, hhotkey, hmillis]

/-- What an object says about a script: the fields that it gives, but for a null hotkey. -/
def said (e : Entry) : List ScriptField :=
  e.given.filter fun f => f ≠ .hotkey none

/-- Two objects say the same about a script, in whatever order. -/
def Alike (e e' : Entry) : Prop :=
  e.said.Perm e'.said

theorem mem_said {e : Entry} {f : ScriptField} :
    f ∈ e.said ↔ .field f ∈ e.members ∧ f ≠ .hotkey none := by
  simp [said, Shape.Object.mem_given]

/-- Alike objects give the same values. -/
theorem Alike.given?_eq {β : Type} {e e' : Entry} (h : e.Alike e') (slot : scriptShape.Slot β)
    (hnull : ∀ b, slot.make b ≠ .hotkey none) : e.given? slot = e'.given? slot := by
  apply Option.ext
  intro b
  have hsaid (e : Entry) : e.given? slot = some b ↔ slot.make b ∈ e.said := by
    rw [e.given?_eq_some_iff, mem_said]
    exact (and_iff_left (hnull b)).symm
  rw [hsaid, hsaid]
  exact h.mem_iff

/-- Alike objects give the same hotkey, and a null is none. -/
theorem Alike.hotkey_eq {e e' : Entry} (h : e.Alike e') : e.saved.hotkey = e'.saved.hotkey := by
  apply Option.ext
  intro words
  have hsaid (e : Entry) : e.saved.hotkey = some words ↔ .hotkey (some words) ∈ e.said := by
    have hgiven : e.saved.hotkey = some words ↔ e.given? hotkeySlot = some (some words) := by
      show (e.given? hotkeySlot).getD none = some words ↔ _
      cases e.given? hotkeySlot <;> simp
    rw [hgiven, e.given?_eq_some_iff, mem_said]
    exact (and_iff_left (by simp)).symm
  rw [hsaid, hsaid]
  exact h.mem_iff

/-- Alike objects stand for the same script. -/
theorem Alike.saved_eq {e e' : Entry} (h : e.Alike e') : e.saved = e'.saved := by
  have hname := h.given?_eq nameSlot (by simp [nameSlot])
  have hscript := h.given?_eq textSlot (by simp [textSlot])
  have hmillis := h.given?_eq lineDelaySlot (by simp [lineDelaySlot])
  calc e.saved
    _ = ⟨e.saved.name, e.saved.script, e.saved.hotkey, e.saved.lineDelayMillis⟩ := rfl
    _ = e'.saved := by
      rw [h.hotkey_eq]
      simp only [saved, hname, hscript, hmillis]

end Entry

/-! ### The settings -/

/-- A field of the settings with its value. -/
inductive SettingsField where
  | scripts (entries : List Entry)
  | startDelay (millis : UInt64)

/-- Two fields of the settings say the same: scripts do if each of them does. -/
inductive SettingsField.Alike : SettingsField → SettingsField → Prop
  | scripts {es es' : List Entry} : List.Forall₂ Entry.Alike es es' →
      SettingsField.Alike (.scripts es) (.scripts es')
  | startDelay (millis : UInt64) : SettingsField.Alike (.startDelay millis) (.startDelay millis)

theorem SettingsField.Alike.symm {f f' : SettingsField} (h : f.Alike f') : f'.Alike f := by
  cases h with
  | scripts hes => exact .scripts (hes.flip.imp fun _ _ he => he.symm)
  | startDelay millis => exact .startDelay millis

/-- The fields of the settings. -/
def settingsShape : Shape SettingsField Settings where
  key
    | .scripts _ => "scripts"
    | .startDelay _ => "script_start_delay_ms"
  Writes
    | .scripts entries, cs => Enclosed .array Shape.Object.Writes entries cs
    | .startDelay millis, cs => WritesMillis millis cs
  set
    | .scripts entries, s => { s with scripts := entries.map Entry.saved }
    | .startDelay millis, s => { s with startDelayMillis := millis }

theorem takes_entry {e : Entry} {cs : List Char} (h : e.Writes cs) :
    (Reader.record scriptFields .default).Takes cs e.saved :=
  e.record_eq ▸ h.takes fits_script .default

theorem takes_entries {entries : List Entry} {cs : List Char}
    (h : Enclosed .array Shape.Object.Writes entries cs) :
    (Reader.list (.record scriptFields .default)).Takes cs (entries.map Entry.saved) :=
  h.takes fun _ _ he => takes_entry he

/-- The reader of settings knows these fields and no others. -/
theorem fits_settings : settingsShape.Fits fields := by
  constructor
  · intro f
    cases f with
    | scripts => exact ⟨_, rfl, fun a cs h => (takes_entries h).map _⟩
    | startDelay => exact ⟨_, rfl, fun a cs h => h.takes.map _⟩
  · intro field hfield
    simp only [fields, List.mem_cons, List.not_mem_nil, or_false] at hfield
    rcases hfield with rfl | rfl
    · exact ⟨.scripts [], rfl⟩
    · exact ⟨.startDelay 0, rfl⟩

/-- The object of a settings file. -/
abbrev Document := settingsShape.Object

namespace Document

def scriptsSlot : settingsShape.Slot (List Entry) where
  make := .scripts
  get?
    | .scripts entries => some entries
    | _ => none
  get?_eq_some_iff f b := by cases f <;> simp
  key_make _ _ := rfl

def startDelaySlot : settingsShape.Slot UInt64 where
  make := .startDelay
  get?
    | .startDelay millis => some millis
    | _ => none
  get?_eq_some_iff f b := by cases f <;> simp
  key_make _ _ := rfl

/-- The settings that a document stands for. -/
def settings (d : Document) : Settings where
  scripts := ((d.given? scriptsSlot).map (·.map Entry.saved)).getD Settings.default.scripts
  startDelayMillis := (d.given? startDelaySlot).getD Settings.default.startDelayMillis

/-- What is read from a document are the settings that it stands for. -/
theorem record_eq (d : Document) : d.record .default = d.settings := by
  have hscripts : (d.record .default).scripts = d.settings.scripts :=
    d.get_record_map scriptsSlot (by intro f a; cases f <;> rfl) .default
  have hmillis : (d.record .default).startDelayMillis = d.settings.startDelayMillis :=
    d.get_record startDelaySlot (by intro f a; cases f <;> rfl) .default
  calc d.record .default
    _ = ⟨(d.record .default).scripts, (d.record .default).startDelayMillis⟩ := rfl
    _ = d.settings := by rw [hscripts, hmillis]

/-- How a file may be written that holds a document, with blanks around it. -/
inductive WritesText (d : Document) : List Char → Prop
  | mk {before cs after : List Char} : IsSpace before → d.Writes cs → IsSpace after →
      WritesText d (before ++ (cs ++ after))

/-- However a document is written, its settings are read. -/
theorem WritesText.parse {d : Document} {text : String} (h : d.WritesText text.toList) :
    Settings.parse text = .ok d.settings := by
  generalize htext : text.toList = whole at h
  obtain ⟨hbefore, hd, hafter⟩ := h
  have htakes : (Reader.record fields .default).Takes _ d.settings :=
    d.record_eq ▸ hd.takes fits_settings .default
  exact readAll_of_takes_between htext hbefore hafter htakes

/-- Two documents say the same: up to order their fields do, whatever other members they have. -/
def Alike (d d' : Document) : Prop :=
  Multiset.Rel SettingsField.Alike d.given d'.given

theorem Alike.symm {d d' : Document} (h : d.Alike d') : d'.Alike d := by
  rw [Alike, ← Multiset.rel_flip]
  exact h.mono fun _ _ _ _ hf => hf.symm

/-- Alike documents give the same delay. -/
theorem Alike.startDelay_mem {d d' : Document} (h : d.Alike d') {millis : UInt64}
    (hmem : .startDelay millis ∈ d.given) : .startDelay millis ∈ d'.given := by
  obtain ⟨f, hf, halike⟩ := Multiset.exists_mem_of_rel_of_mem h hmem
  cases halike
  exact hf

/-- Alike documents give scripts that stand for the same ones. -/
theorem Alike.scripts_mem {d d' : Document} (h : d.Alike d') {es : List Entry}
    (hmem : .scripts es ∈ d.given) :
    ∃ es', .scripts es' ∈ d'.given ∧ es'.map Entry.saved = es.map Entry.saved := by
  obtain ⟨f, hf, halike⟩ := Multiset.exists_mem_of_rel_of_mem h hmem
  obtain @⟨_, es', hentries⟩ := halike
  refine ⟨es', hf, ?_⟩
  clear hf hmem
  induction hentries with
  | nil => rfl
  | cons he _ ih => rw [List.map_cons, List.map_cons, he.saved_eq, ih]

/-- Alike documents stand for the same settings. -/
theorem Alike.settings_eq {d d' : Document} (h : d.Alike d') : d.settings = d'.settings := by
  have hmillis : d.given? startDelaySlot = d'.given? startDelaySlot := by
    apply Option.ext
    intro millis
    rw [d.given?_eq_some_iff, d'.given?_eq_some_iff, ← Shape.Object.mem_given,
      ← Shape.Object.mem_given]
    exact ⟨h.startDelay_mem, h.symm.startDelay_mem⟩
  have hscripts : (d.given? scriptsSlot).map (·.map Entry.saved) =
      (d'.given? scriptsSlot).map (·.map Entry.saved) := by
    apply Option.ext
    intro scripts
    have hsaid {d d' : Document} (h : d.Alike d')
        (hd : (d.given? scriptsSlot).map (·.map Entry.saved) = some scripts) :
        (d'.given? scriptsSlot).map (·.map Entry.saved) = some scripts := by
      obtain ⟨es, hes, rfl⟩ := Option.map_eq_some_iff.mp hd
      obtain ⟨es', hmem, heq⟩ :=
        h.scripts_mem (Shape.Object.mem_given.mpr ((d.given?_eq_some_iff scriptsSlot).mp hes))
      have hes' : d'.given? scriptsSlot = some es' :=
        (d'.given?_eq_some_iff scriptsSlot).mpr (Shape.Object.mem_given.mp hmem)
      rw [hes', Option.map_some, heq]
    exact ⟨hsaid h, hsaid h.symm⟩
  rw [settings, settings, hscripts, hmillis]

end Document

/-! ### A document in two forms -/

/-- A script with a name and a text. -/
def briefEntry : Entry where
  members := [.field (.name "a"), .field (.script "Stop")]
  once := by decide
  others := by simp

/-- The same in another order, with a null hotkey and with another member. -/
def longEntry : Entry where
  members := [.field (.script "Stop"), .field (.hotkey none), .other "v", .field (.name "a")]
  once := by decide
  others := by
    intro key hkey f
    obtain rfl : key = "v" := by simpa using hkey
    cases f <;> simp [scriptShape]

/-- A document with one script and nothing else. -/
def oneScript (e : Entry) : Document where
  members := [.field (.scripts [e])]
  once := by simp [Shape.fieldKeys, Member.field?]
  others := by simp

/-- A file with one script and blanks around it. -/
theorem writesText_oneScript {e : Entry} {before cs after : List Char} (hbefore : IsSpace before)
    (h : e.Writes cs) (hafter : IsSpace after) {text : String}
    (htext : text.toList =
      before ++ ("\x7b\"scripts\":[".toList ++ (cs ++ ']' :: '\x7d' :: after))) :
    (oneScript e).WritesText text.toList := by
  have hkey : "scripts".toList.all Text.isPlain = true := by decide
  have hentries : Enclosed .array Shape.Object.Writes [e] _ :=
    .filled isSpace_nil (.last h isSpace_nil)
  have hmember : settingsShape.WritesMember (.field (.scripts [e])) _ :=
    Shape.writesMember_plain hkey hentries
  have hdocument : (oneScript e).Writes _ := .filled isSpace_nil (.last hmember isSpace_nil)
  have hopening : "\x7b\"scripts\":[".toList =
      '\x7b' :: '"' :: ("scripts".toList ++ ['"', ':', '[']) := by decide
  have hmemberKey : settingsShape.memberKey (.field (.scripts [e])) = "scripts" := rfl
  have hwrites := Document.WritesText.mk hbefore hdocument hafter
  rw [htext, hopening]
  simpa [Container.opening, Container.closing, hmemberKey] using hwrites

theorem writes_briefEntry :
    briefEntry.Writes "\x7b\"name\":\"a\",\"script\":\"Stop\"\x7d".toList := by
  have hname : Text.Writes "a" _ := .mk (Text.spells_self (by decide))
  have hscript : Text.Writes "Stop" _ := .mk (Text.spells_self (by decide))
  have hwrites : briefEntry.Writes _ := .filled isSpace_nil
    (.more (Shape.writesMember_plain (by decide) hname) isSpace_nil isSpace_nil
      (.last (Shape.writesMember_plain (by decide) hscript) isSpace_nil))
  exact hwrites

theorem writes_longEntry : longEntry.Writes
    ("\x7b\"script\":\"St\\u006fp\", \"hotkey\":null,\"v\":[\x7b\x7d,-1e3],".toList ++
      "\"name\":\"a\"\x7d".toList) := by
  have hblank : IsSpace [' '] := by decide
  have hname : Text.Writes "a" _ := .mk (Text.spells_self (by decide))
  have hunit : Text.hexValue? '0' '0' '6' 'f' = some 'o'.toNat := by decide
  have hscript : Text.Writes "Stop" _ :=
    .mk (.plain (by decide) (by decide) (by decide) (.plain (by decide) (by decide) (by decide)
      (.unit hunit rfl rfl (Text.spells_self (by decide)))))
  have hnumber : Numeral.Writes ⟨true, ['1'], [], some (false, ['3'])⟩ _ :=
    .mk (by decide) (by decide) .absent (.unsigned (.inl rfl) (by decide))
  have hlist : IsJson .value _ := .filled (c := .array) isSpace_nil
    (.more (.element (.empty (c := .object) isSpace_nil)) isSpace_nil isSpace_nil
      (.last (.element (.scalar (.number hnumber))) isSpace_nil))
  have hwrites : longEntry.Writes _ := .filled isSpace_nil
    (.more (Shape.writesMember_plain (by decide) hscript) isSpace_nil hblank
      (.more (Shape.writesMember_plain (by decide) rfl) isSpace_nil isSpace_nil
        (.more (Shape.writesMember_plain (by decide) hlist) isSpace_nil isSpace_nil
          (.last (Shape.writesMember_plain (by decide) hname) isSpace_nil))))
  exact hwrites

/-! ### Loading -/

/-- However a document is written, loading it gives the settings that it stands for: each field as
it is given, or else by default. A document that says the same loads as the same settings, however
it is written. -/
theorem load_written (d : Document) {text : String} (h : d.WritesText text.toList) (path : String) :
    load path (.ok text) = .ok d.settings ∧
    ∀ (d' : Document) (text' : String), d.Alike d' → d'.WritesText text'.toList →
      load path (.ok text') = load path (.ok text) := by
  have hload {d : Document} {text : String} (h : d.WritesText text.toList) :
      load path (.ok text) = .ok d.settings := by
    simp only [load, h.parse]
  refine ⟨hload h, ?_⟩
  intro d' text' halike h'
  rw [hload h, hload h', halike.settings_eq]

/-- A script with a name and a text, and the same in another order, with an escape, a null hotkey,
another member and blanks. -/
theorem load_written_reordered :
    let brief := "\x7b\"scripts\":[\x7b\"name\":\"a\",\"script\":\"Stop\"\x7d]\x7d"
    let long := "\n\x7b\"scripts\":[\x7b\"script\":\"St\\u006fp\", \"hotkey\":null," ++
      "\"v\":[\x7b\x7d,-1e3],\"name\":\"a\"\x7d]\x7d "
    load "a.json" (.ok brief) = .ok ⟨[⟨"a", "Stop", none, 0⟩], 0⟩ ∧
      load "a.json" (.ok long) = load "a.json" (.ok brief) := by
  intro brief long
  have hbrief : (oneScript briefEntry).WritesText brief.toList :=
    writesText_oneScript isSpace_nil writes_briefEntry isSpace_nil (by decide)
  have hline : IsSpace ['\n'] := by decide
  have hblank : IsSpace [' '] := by decide
  have hlong : (oneScript longEntry).WritesText long.toList :=
    writesText_oneScript hline writes_longEntry hblank (by decide)
  have halike : (oneScript briefEntry).Alike (oneScript longEntry) := by
    have hentry : briefEntry.said.Perm longEntry.said := by decide
    exact .cons (.scripts (.cons hentry .nil)) .zero
  obtain ⟨hload, hsame⟩ := load_written (oneScript briefEntry) hbrief "a.json"
  exact ⟨hload, hsame (oneScript longEntry) long halike hlong⟩

end InputScript.Settings
