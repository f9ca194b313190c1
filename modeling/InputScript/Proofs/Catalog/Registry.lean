import InputScript.Proofs.Catalog.Registration

/-!
# `InputScript.Proofs.Catalog.Registry`: a catalog and what was registered in it

Registrations are tried one after the other on an empty catalog, and a refusal is no reason to give
up: the next one is tried on the catalog as it is. `accepted` keeps account of the registrations
that succeed, by the answers to them alone.

Two facts hold after any number of tries. The entries are what was accepted, in that order, and no
two of them share a name. Everything else that can be asked of the catalog follows: which
registration it refuses next, and what it finds under a name.

* `register_error_iff`, `lookup_error_iff`: when a catalog refuses a registration or a name.
* `entries_attemptAll`, `NamesApart.attemptAll`: the two facts, by induction on the tries.
* `registry_of_attempts`: the whole statement.
-/

set_option autoImplicit false

namespace InputScript

open Text

namespace Catalog

variable {catalog : Catalog} {d : Descriptor} {name : String}

/-- The catalog after a registration was tried on it, whether or not it was accepted. -/
def attempt (catalog : Catalog) (d : Descriptor) : Catalog :=
  (catalog.register d).2

/-- The catalog after registrations were tried on it one after the other. -/
def attemptAll (catalog : Catalog) (ds : List Descriptor) : Catalog :=
  ds.foldl attempt catalog

/-- Those of the tried registrations that were accepted, in order. -/
def accepted (catalog : Catalog) : List Descriptor → List Descriptor
  | [] => []
  | d :: ds =>
    match (catalog.register d).1 with
    | .ok () => d :: (catalog.attempt d).accepted ds
    | .error _ => (catalog.attempt d).accepted ds

/-- A catalog that holds the commands of a list and nothing else. -/
structure IsRegistry (listed : List Descriptor) (catalog : Catalog) : Prop where
  /-- It has them in their order. -/
  entries : catalog.entries = listed
  /-- No two of them share a name, in whatever case it is written. -/
  apart : listed.Pairwise fun a b => sameName a.name b.name = false
  /-- It refuses a registration exactly if one of them has its name, in whatever case. -/
  refused : ∀ d e, (catalog.register d).1 = .error e ↔
    e = .duplicate d.name ∧ ∃ a ∈ listed, sameName a.name d.name = true
  /-- A refused registration changes nothing. -/
  unchanged : ∀ d e, (catalog.register d).1 = .error e → (catalog.register d).2 = catalog
  /-- What it finds under a name is the only one of them that has it, in whatever case. -/
  found : ∀ name d, catalog.lookup name = .ok d ↔
    d ∈ listed ∧ sameName d.name name = true ∧
      ∀ other ∈ listed, sameName other.name name = true → other = d
  /-- It does not know a name exactly if none of them has it, and then it says so of that name. -/
  unknown : ∀ name e, catalog.lookup name = .error e ↔
    e = .unknown name ∧ ∀ d ∈ listed, sameName d.name name = false

/-! ### One question -/

/-- No entry is found under a name exactly if none has it. -/
theorem find?_eq_none_iff : catalog.find? name = none ↔
    ∀ d ∈ catalog.entries, sameName d.name name = false := by
  simp [find?]

/-- A registration is refused exactly if an entry has its name. -/
theorem register_error_iff {e : CatalogError} : (catalog.register d).1 = .error e ↔
    e = .duplicate d.name ∧ ∃ a ∈ catalog.entries, sameName a.name d.name = true := by
  have htaken : (∃ a ∈ catalog.entries, sameName a.name d.name = true) ↔
      catalog.find? d.name ≠ none := by
    simp [find?_eq_none_iff]
  rw [htaken]
  cases h : catalog.find? d.name with
  | none => simp [register_of_free h]
  | some found => simp [register_of_taken h, eq_comm]

/-- A name is found where an entry is found under it. -/
theorem lookup_ok_iff : catalog.lookup name = .ok d ↔ catalog.find? name = some d := by
  rw [lookup]
  cases catalog.find? name <;> simp

/-- A name is unknown exactly if no entry has it. -/
theorem lookup_error_iff {e : CatalogError} : catalog.lookup name = .error e ↔
    e = .unknown name ∧ ∀ d ∈ catalog.entries, sameName d.name name = false := by
  rw [← find?_eq_none_iff, lookup]
  cases catalog.find? name with
  | none => simp [eq_comm]
  | some found => simp

/-! ### One registration after the other -/

/-- A refused registration leaves the catalog as it is. -/
theorem register_of_error {e : CatalogError} (h : (catalog.register d).1 = .error e) :
    (catalog.register d).2 = catalog := by
  obtain ⟨-, a, ha, hname⟩ := register_error_iff.mp h
  cases hfind : catalog.find? d.name with
  | none => exact absurd hname (by simp [find?_eq_none_iff.mp hfind a ha])
  | some found => rw [register_of_taken hfind]

/-- Whether it is accepted or refused, a registration keeps the names apart. -/
theorem NamesApart.attempt (hapart : catalog.NamesApart) (d : Descriptor) :
    (catalog.attempt d).NamesApart := by
  rw [Catalog.attempt]
  cases h : (catalog.register d).1 with
  | ok => exact hapart.register (Prod.ext h rfl)
  | error e =>
    rw [register_of_error h]
    exact hapart

/-- So does every sequence of them. -/
theorem NamesApart.attemptAll (hapart : catalog.NamesApart) (ds : List Descriptor) :
    (catalog.attemptAll ds).NamesApart := by
  induction ds generalizing catalog with
  | nil => exact hapart
  | cons d ds ih => exact ih (hapart.attempt d)

/-- The registrations that are accepted add their entries at the end, in order. -/
theorem entries_attemptAll (catalog : Catalog) (ds : List Descriptor) :
    (catalog.attemptAll ds).entries = catalog.entries ++ catalog.accepted ds := by
  induction ds generalizing catalog with
  | nil => exact (List.append_nil _).symm
  | cons d ds ih =>
    show ((catalog.attempt d).attemptAll ds).entries = _
    rw [ih, accepted]
    cases h : (catalog.register d).1 with
    | error e => rw [attempt, register_of_error h]
    | ok =>
      have hregister : catalog.register d = (.ok (), catalog.attempt d) := Prod.ext h rfl
      obtain ⟨-, hextended⟩ := register_eq_ok_iff.mp hregister
      rw [hextended]
      show (catalog.entries ++ [d]) ++ _ = catalog.entries ++ d :: _
      rw [List.append_assoc, List.singleton_append]

/-- A catalog whose names are apart is a registry of its entries. -/
theorem NamesApart.isRegistry (hapart : catalog.NamesApart) :
    IsRegistry catalog.entries catalog where
  entries := rfl
  apart := hapart
  refused := fun _ _ => register_error_iff
  unchanged := fun _ _ => register_of_error
  found := by
    intro name d
    rw [lookup_ok_iff, hapart.find?_eq_some_iff]
    constructor
    · rintro ⟨hd, hname⟩
      refine ⟨hd, hname, fun other hother hsame => ?_⟩
      exact hapart.eq_of_sameName hother hd (sameName_trans hsame (sameName_symm hname))
    · rintro ⟨hd, hname, -⟩
      exact ⟨hd, hname⟩
  unknown := fun _ _ => lookup_error_iff

/-- Whatever registrations were tried on an empty catalog, it holds those that were accepted, in the
order in which they were. So no two entries share a name, the next registration is refused exactly
if an accepted one has its name, a refusal changes nothing, and every name finds the one entry that
has it or is unknown. Names are compared without regard to case. -/
theorem registry_of_attempts (ds : List Descriptor) :
    IsRegistry (empty.accepted ds) (empty.attemptAll ds) := by
  have hempty : empty.NamesApart := List.Pairwise.nil
  have hentries : (empty.attemptAll ds).entries = empty.accepted ds := entries_attemptAll empty ds
  have hregistry := (hempty.attemptAll ds).isRegistry
  rw [hentries] at hregistry
  exact hregistry

/-- A name that comes again in another case is refused, and what follows is accepted. -/
example :
    let fly : Descriptor := ⟨"Fly", .exactly 1, "", .builtin .label⟩
    let again : Descriptor := ⟨"FLY", .exactly 2, "", .builtin .stop⟩
    let land : Descriptor := ⟨"Land", .exactly 0, "", .builtin .stop⟩
    empty.accepted [fly, again, land] = [fly, land] :=
  rfl

end Catalog

end InputScript
