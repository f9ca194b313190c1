import InputScript.Script.Compile
import Mathlib.Data.List.Pairwise

/-!
# `InputScript.Proofs.Catalog.Registration`: what registering a command changes

A catalog grows by registrations, and a name that is taken is refused, in whatever case it is
written. So no two entries share a name, an entry is found by its name alone, and what is found does
not tell in which order the entries came.

Compiling asks a catalog for the entry of a command and for nothing else. Where a jump leads and
which labels there are is read off the script. Two facts about whole scripts follow from that:

* `compile_eq_of_reordered`: the order of the registrations makes no difference.
* `compile_of_register`: one more command changes nothing, unless its name was the unknown command
  that ended the compilation.

The first rests on `NamesApart`, which every registration keeps, the second on `find?_register`.
-/

set_option autoImplicit false

namespace InputScript

open Text

namespace Catalog

variable {catalog extended : Catalog} {d : Descriptor}

/-! ### Registering -/

/-- Registrations that all succeed put their entries at the end, in their order. -/
theorem entries_of_registerAll {ds : List Descriptor}
    (h : catalog.registerAll ds = .ok extended) :
    extended.entries = catalog.entries ++ ds := by
  induction ds generalizing catalog with
  | nil =>
    cases h
    exact (List.append_nil _).symm
  | cons d ds ih =>
    rw [registerAll] at h
    split at h
    · cases h
    · rename_i next hnext
      obtain ⟨-, rfl⟩ := register_eq_ok_iff.mp hnext
      rw [ih h]
      show (catalog.entries ++ [d]) ++ ds = catalog.entries ++ d :: ds
      rw [List.append_assoc, List.singleton_append]

/-- After a registration the old entries are found first, and then the new one. -/
theorem find?_register (h : catalog.register d = (.ok (), extended)) (name : String) :
    extended.find? name =
      (catalog.find? name).or (if sameName d.name name then some d else none) := by
  obtain ⟨-, rfl⟩ := register_eq_ok_iff.mp h
  rw [find?, find?, List.find?_append, List.find?_singleton]

/-! ### Names -/

/-- No two entries share a name, in whatever case it is written. -/
def NamesApart (catalog : Catalog) : Prop :=
  catalog.entries.Pairwise fun a b => sameName a.name b.name = false

namespace NamesApart

/-- A registration that succeeds keeps the names apart. -/
theorem register (hapart : catalog.NamesApart) (h : catalog.register d = (.ok (), extended)) :
    extended.NamesApart := by
  obtain ⟨hfree, rfl⟩ := register_eq_ok_iff.mp h
  have hnew : ∀ a ∈ catalog.entries, sameName a.name d.name = false := by
    intro a ha
    simpa using List.find?_eq_none.mp hfree a ha
  rw [NamesApart, List.pairwise_append]
  exact ⟨hapart, List.pairwise_singleton _ d, by simpa using hnew⟩

/-- So does every sequence of them. -/
theorem registerAll (hapart : catalog.NamesApart) {ds : List Descriptor}
    (h : catalog.registerAll ds = .ok extended) : extended.NamesApart := by
  induction ds generalizing catalog with
  | nil =>
    cases h
    exact hapart
  | cons d ds ih =>
    rw [Catalog.registerAll] at h
    split at h
    · cases h
    · rename_i next hnext
      exact ih (hapart.register hnext) h

/-- Entries of one name are the same entry. -/
theorem eq_of_sameName (hapart : catalog.NamesApart) {a b : Descriptor}
    (ha : a ∈ catalog.entries) (hb : b ∈ catalog.entries)
    (hsame : sameName a.name b.name = true) : a = b := by
  by_contra hne
  have : Std.Symm fun a b : Descriptor => sameName a.name b.name = false := by
    constructor
    intro a b hab
    by_contra hba
    rw [sameName_symm (by simpa using hba)] at hab
    cases hab
  rw [List.Pairwise.forall hapart ha hb hne] at hsame
  cases hsame

/-- Where the names are apart, the entry of a name is found wherever it stands. -/
theorem find?_eq_some_iff (hapart : catalog.NamesApart) (name : String) :
    catalog.find? name = some d ↔ d ∈ catalog.entries ∧ sameName d.name name = true := by
  constructor
  · intro h
    exact ⟨List.mem_of_find?_eq_some h, sameName_of_find? h⟩
  · rintro ⟨hd, hname⟩
    cases hfind : catalog.find? name with
    | none => exact absurd hname (List.find?_eq_none.mp hfind d hd)
    | some found =>
      have hsame : sameName found.name d.name = true :=
        sameName_trans (sameName_of_find? hfind) (sameName_symm hname)
      rw [hapart.eq_of_sameName (List.mem_of_find?_eq_some hfind) hd hsame]

/-- The same entries are found in two catalogs that have the same entries. -/
theorem find?_congr {other : Catalog} (hapart : catalog.NamesApart) (hother : other.NamesApart)
    (hsame : ∀ d, d ∈ catalog.entries ↔ d ∈ other.entries) (name : String) :
    catalog.find? name = other.find? name := by
  ext d
  rw [hapart.find?_eq_some_iff, hother.find?_eq_some_iff, hsame]

end NamesApart

/-! ### Compiling with catalogs in which the same is found -/

section Congruence

variable {other : Catalog} (hfind : ∀ name, catalog.find? name = other.find? name)

include hfind

theorem compileLine_congr (source : Source) (c : SourceLine) :
    catalog.compileLine source c = other.compileLine source c := by
  rw [compileLine, compileLine, hfind]

theorem compileLines_congr (source : Source) (cs : List SourceLine) :
    catalog.compileLines source cs = other.compileLines source cs := by
  induction cs with
  | nil => rfl
  | cons c cs ih => rw [compileLines, compileLines, compileLine_congr hfind, ih]

/-- Catalogs in which the same entries are found compile every text alike. -/
theorem compile_congr (lines : List String) : catalog.compile lines = other.compile lines := by
  rw [compile, compile]
  cases Source.ofLines lines with
  | error u => rfl
  | ok source =>
    dsimp only
    rw [compileLines_congr hfind]

end Congruence

/-- The order in which commands are registered makes no difference to any script: with the same
commands in two orders, every text gives the same script or the same error. -/
theorem compile_eq_of_reordered {ds ds' : List Descriptor} {other : Catalog}
    (h : empty.registerAll ds = .ok catalog) (h' : empty.registerAll ds' = .ok other)
    (hsame : ∀ d, d ∈ ds ↔ d ∈ ds') (lines : List String) :
    catalog.compile lines = other.compile lines := by
  have hempty : empty.NamesApart := List.Pairwise.nil
  have hentries : catalog.entries = ds := entries_of_registerAll h
  have hentries' : other.entries = ds' := entries_of_registerAll h'
  apply compile_congr
  intro name
  apply (hempty.registerAll h).find?_congr (hempty.registerAll h')
  rw [hentries, hentries']
  exact hsame

/-- The built-in commands in their usual order and the other way round: the catalogs differ, but
not in how they compile. -/
theorem compile_eq_of_reordered_builtin : ∃ backwards : Catalog,
    empty.registerAll builtin.entries = .ok builtin ∧
    empty.registerAll builtin.entries.reverse = .ok backwards ∧
    builtin.names ≠ backwards.names ∧
    ∀ lines, builtin.compile lines = backwards.compile lines := by
  have husual : empty.registerAll builtin.entries = .ok builtin := by with_unfolding_all rfl
  have hbackwards :
      empty.registerAll builtin.entries.reverse = .ok ⟨builtin.entries.reverse⟩ := by
    with_unfolding_all rfl
  exact ⟨_, husual, hbackwards, by decide,
    compile_eq_of_reordered husual hbackwards fun d => List.mem_reverse.symm⟩

/-! ### Compiling with one command more -/

/-- Two results are the same, unless the first one is that a command of the name is unknown. -/
def SameUnless {α : Type} (name : String) (x y : Except CompileError α) : Prop :=
  y = x ∨ ∃ raw line, x = .error (.unknownCommand raw line) ∧ sameName name raw = true

section Extension

variable (h : catalog.register d = (.ok (), extended))

include h

/-- One line is compiled as before, unless the new command is the one that was unknown. -/
theorem compileLine_register (source : Source) (c : SourceLine) :
    SameUnless d.name (catalog.compileLine source c) (extended.compileLine source c) := by
  rw [compileLine, compileLine, find?_register h]
  cases catalog.find? c.name with
  | some found => exact .inl rfl
  | none =>
    by_cases hname : sameName d.name c.name = true
    · exact .inr ⟨c.name, c.number, rfl, hname⟩
    · rw [if_neg hname]
      exact .inl rfl

/-- So are all lines, since the first of them that fails decides. -/
theorem compileLines_register (source : Source) (cs : List SourceLine) :
    SameUnless d.name (catalog.compileLines source cs) (extended.compileLines source cs) := by
  induction cs with
  | nil => exact .inl rfl
  | cons c cs ih =>
    rw [compileLines, compileLines]
    rcases compileLine_register h source c with hc | ⟨raw, line, hc, hname⟩
    · rw [hc]
      cases catalog.compileLine source c with
      | error e => exact .inl rfl
      | ok i =>
        rcases ih with hcs | ⟨raw, line, hcs, hname⟩
        · rw [hcs]
          exact .inl rfl
        · rw [hcs]
          exact .inr ⟨raw, line, rfl, hname⟩
    · rw [hc]
      exact .inr ⟨raw, line, rfl, hname⟩

/-- So is every text. -/
theorem compile_register (lines : List String) :
    SameUnless d.name (catalog.compile lines) (extended.compile lines) := by
  rw [compile, compile]
  cases Source.ofLines lines with
  | error u => exact .inl rfl
  | ok source =>
    rcases compileLines_register h source source.lines with hcs | ⟨raw, line, hcs, hname⟩
    · dsimp only
      rw [hcs]
      exact .inl rfl
    · dsimp only
      rw [hcs]
      exact .inr ⟨raw, line, rfl, hname⟩

end Extension

/-- Registering a command leaves every script as it is. What compiled gives the same script, and
what failed fails with the same error, unless the error was that the new command is unknown. -/
theorem compile_of_register (h : catalog.register d = (.ok (), extended)) (lines : List String) :
    (∀ script, catalog.compile lines = .ok script → extended.compile lines = .ok script) ∧
    ∀ e, catalog.compile lines = .error e →
      (∀ name line, e = .unknownCommand name line → sameName d.name name = false) →
      extended.compile lines = .error e := by
  have hsame := compile_register h lines
  constructor
  · intro script hscript
    rw [hscript] at hsame
    rcases hsame with hsame | ⟨raw, line, hunknown, -⟩
    · exact hsame
    · cases hunknown
  · intro e he hother
    rw [he] at hsame
    rcases hsame with hsame | ⟨raw, line, hunknown, hname⟩
    · exact hsame
    · rw [hother raw line (Except.error.inj hunknown)] at hname
      cases hname

/-- A command to fly beside the built-in ones. A script without it compiles as before, and a script
that fails in front of it fails as before. -/
theorem compile_of_register_fly : ∃ extended script,
    builtin.register ⟨"Fly", .exactly 1, "Fly <where>",
      .custom "Fly" fun scope => .ok (scope.params, .done)⟩ = (.ok (), extended) ∧
    builtin.compile ["Wait 5", "Call wait"] = .ok script ∧
    extended.compile ["Wait 5", "Call wait"] = .ok script ∧
    extended.compile ["Wait", "Fly up"] =
      .error (.invalidParameters "Wait" 1 (.count ⟨1, 2⟩ 0)) := by
  have hregister : builtin.register ⟨"Fly", .exactly 1, "Fly <where>",
      .custom "Fly" fun scope => .ok (scope.params, .done)⟩ =
        (.ok (), ⟨builtin.entries ++ [_]⟩) := rfl
  have hcompile : builtin.compile ["Wait 5", "Call wait"] =
      .ok ⟨[⟨1, ["5"], .wait (.ofMillis 5) (.ofMillis 5)⟩, ⟨2, ["1"], .call 1⟩], 2⟩ := by
    with_unfolding_all rfl
  have hfails : builtin.compile ["Wait", "Fly up"] =
      .error (.invalidParameters "Wait" 1 (.count ⟨1, 2⟩ 0)) := by
    with_unfolding_all rfl
  refine ⟨_, _, hregister, hcompile, (compile_of_register hregister _).1 _ hcompile,
    (compile_of_register hregister _).2 _ hfails ?_⟩
  intro name line hunknown
  cases hunknown

end Catalog

end InputScript
