import InputScript.Script
import Mathlib.Data.String.Basic

/-!
# `InputScript.Proofs.Script.LabelTable`: the table answers with the first label

The label table is kept sorted by name, and a name that is there keeps its index. Looking a
name up in it is therefore the same as searching the instructions for the first label of
that name.

* `sorted_addLabel`: adding a label keeps the table sorted.
* `lookup_addLabel`: it adds one answer and changes none.
* `lookup_labels`: the table of a script answers with the first label.
-/

set_option autoImplicit false

namespace InputScript.Script

/-- The names of a label table increase, so none occurs twice. -/
def LabelsSorted (table : List (String × Nat)) : Prop :=
  table.Pairwise fun a b => a.1 < b.1

/-- An entry of the extended table is the new one or was there. -/
theorem mem_addLabel {name : String} {index : Nat} {table : List (String × Nat)}
    {entry : String × Nat} (h : entry ∈ addLabel name index table) :
    entry = (name, index) ∨ entry ∈ table := by
  induction table with
  | nil => exact .inl (List.mem_singleton.mp h)
  | cons first rest ih =>
    obtain ⟨other, place⟩ := first
    rw [addLabel] at h
    split at h
    · exact .inr h
    · split at h
      · exact List.mem_cons.mp h
      · rcases List.mem_cons.mp h with rfl | h
        · exact .inr List.mem_cons_self
        · exact (ih h).imp_right (List.mem_cons_of_mem _)

/-- Adding a label keeps the table sorted. -/
theorem sorted_addLabel (name : String) (index : Nat) {table : List (String × Nat)}
    (h : LabelsSorted table) : LabelsSorted (addLabel name index table) := by
  induction table with
  | nil => exact List.pairwise_singleton _ _
  | cons first rest ih =>
    obtain ⟨other, place⟩ := first
    obtain ⟨hfirst, hrest⟩ := List.pairwise_cons.mp h
    rw [addLabel]
    split
    · exact h
    · rename_i hne
      split
      · rename_i hlt
        refine List.Pairwise.cons ?_ h
        intro entry hentry
        rcases List.mem_cons.mp hentry with rfl | hentry
        · exact hlt
        · exact lt_trans hlt (hfirst entry hentry)
      · rename_i hnlt
        refine List.Pairwise.cons ?_ (ih hrest)
        intro entry hentry
        rcases mem_addLabel hentry with rfl | hentry
        · exact lt_of_le_of_ne (not_lt.mp hnlt) (Ne.symm hne)
        · exact hfirst entry hentry

/-- A name before all names of a table is not in it. -/
theorem lookup_eq_none_of_lt {name : String} {table : List (String × Nat)}
    (h : ∀ entry ∈ table, name < entry.1) : table.lookup name = none := by
  rw [List.lookup_eq_none_iff]
  intro entry hentry
  exact bne_iff_ne.mpr (ne_of_lt (h entry hentry))

/-- Adding a label adds one answer and changes none. -/
theorem lookup_addLabel (name : String) (index : Nat) {table : List (String × Nat)}
    (h : LabelsSorted table) (sought : String) :
    (addLabel name index table).lookup sought =
      (table.lookup sought).or (if sought = name then some index else none) := by
  induction table with
  | nil =>
    by_cases hs : sought = name
    · simp [addLabel, hs]
    · simp [addLabel, List.lookup_cons, beq_false_of_ne hs, hs]
  | cons first rest ih =>
    obtain ⟨other, place⟩ := first
    obtain ⟨hfirst, hrest⟩ := List.pairwise_cons.mp h
    rw [addLabel]
    split
    · -- The name is there already, and it keeps its index.
      rename_i heq
      subst heq
      by_cases hs : sought = name
      · subst hs
        simp
      · simp [hs]
    · rename_i hne
      split
      · rename_i hlt
        -- The new entry comes first, and all names behind it are greater.
        by_cases hs : sought = name
        · subst hs
          have hnone : ((other, place) :: rest).lookup sought = none := by
            apply lookup_eq_none_of_lt
            intro entry hentry
            rcases List.mem_cons.mp hentry with rfl | hentry
            · exact hlt
            · exact lt_trans hlt (hfirst entry hentry)
          rw [hnone]
          simp
        · rw [List.lookup_cons, beq_false_of_ne hs]
          simp [hs]
      · rw [List.lookup_cons, List.lookup_cons]
        cases hs : sought == other with
        | true => rfl
        | false => exact ih hrest

/-- Places counted from one further on. -/
theorem map_succ_add (found : Option Nat) (index : Nat) :
    (found.map (· + 1)).map (· + index) = found.map (· + (index + 1)) := by
  cases found with
  | none => rfl
  | some k =>
    show some (k + 1 + index) = some (k + (index + 1))
    congr 1
    omega

/-- Adding the labels of instructions gives the old answers, and else the first label. -/
theorem lookup_addLabels (is : List Instruction) (sought : String) (index : Nat)
    {table : List (String × Nat)} (h : LabelsSorted table) :
    (addLabels index table is).lookup sought = (table.lookup sought).or
      ((is.findIdx? fun i => i.label? == some sought).map (· + index)) := by
  induction is generalizing index table with
  | nil => simp [addLabels]
  | cons i rest ih =>
    rw [addLabels, List.findIdx?_cons]
    split
    · -- No label: the search goes on one further.
      rename_i hnone
      rw [ih (index + 1) h, hnone, show ((none : Option String) == some sought) = false from rfl,
        if_neg (by decide), map_succ_add]
    · rename_i name hname
      rw [ih (index + 1) (sorted_addLabel name index h), lookup_addLabel name index h, hname,
        Option.or_assoc]
      by_cases hs : sought = name
      · -- The table answers with this label, unless it had an answer before.
        subst hs
        simp
      · have hne : (some name == some sought) = false := by simpa using Ne.symm hs
        rw [if_neg hs, Option.none_or, hne, if_neg (by decide), map_succ_add]

/-- The label table of a script answers with the first label of a name. -/
theorem lookup_labels (s : Script) (name : String) :
    s.labels.lookup name = s.instructions.findIdx? fun i => i.label? == some name := by
  rw [labels, lookup_addLabels _ _ _ List.Pairwise.nil]
  simp

end InputScript.Script
