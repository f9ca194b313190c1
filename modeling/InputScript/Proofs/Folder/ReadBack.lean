import InputScript.Folder
import Mathlib.Data.List.Basic

/-!
# `InputScript.Proofs.Folder.ReadBack`: a file that was written is read again

Writing replaces one file or adds one, where no folder is. Folders stay folders, so a way through
them leads to the same place before and after, and the path that the text was written to leads to
the text.

* `destination_put_of_folder`: folders stay folders.
* `walk_put`: ways through folders stay ways.
* `exists_of_write`: what a write that succeeds has found.
* `read_of_write`: the path of a file that was written leads to what was written.
-/

set_option autoImplicit false

namespace InputScript

namespace Folder

/-- Putting a text somewhere else leaves a folder a folder. -/
theorem destination_put_of_folder {f : Folder} {names place : List String} (s : String)
    (hne : place ≠ names) (h : f.destination place = .folder) :
    (f.put names s).destination place = .folder := by
  simp only [destination] at h ⊢
  split at h
  · cases h
  · rename_i hnone
    have hnone' : (f.put names s).files.lookup place = none := by
      rw [List.lookup_eq_none_iff] at hnone ⊢
      simp only [put, List.mem_cons, List.mem_filter]
      rintro file (rfl | ⟨hfile, -⟩)
      · simpa using hne
      · exact hnone file hfile
    rw [hnone']
    dsimp only
    split at h
    · rename_i hfolder
      rw [if_pos]
      simp only [Bool.or_eq_true, List.any_eq_true] at hfolder ⊢
      rcases hfolder with hfolder | ⟨file, hfile, hprefix⟩
      · exact .inl hfolder
      · -- A file in the folder may be the one that is replaced.
        right
        by_cases hsame : file.1 = names
        · exact ⟨(names, .text s), List.mem_cons_self, by rw [← hsame]; exact hprefix⟩
        · exact ⟨file, List.mem_cons_of_mem _ (List.mem_filter.mpr ⟨hfile, by simpa using hsame⟩),
            hprefix⟩
    · cases h

/-- A step starts from a folder. -/
theorem destination_of_step {f : Folder} {place next : List String} {name : String}
    (h : f.step place name = .ok next) : f.destination place = .folder := by
  rw [step] at h
  split at h
  · cases h
  · cases h
  · assumption

section Put

variable {f : Folder} {names : List String} (hnames : f.destination names ≠ .folder) (s : String)

include hnames

/-- Putting a text where no folder is keeps every step. -/
theorem step_put {place next : List String} {name : String} (h : f.step place name = .ok next) :
    (f.put names s).step place name = .ok next := by
  have hfolder := destination_of_step h
  have hne : place ≠ names := by
    rintro rfl
    exact hnames hfolder
  rw [step, destination_put_of_folder s hne hfolder]
  rw [step, hfolder] at h
  exact h

/-- It keeps every way through the folders. -/
theorem walk_put {place next : List String} {steps : List String}
    (h : f.walk place steps = .ok next) : (f.put names s).walk place steps = .ok next := by
  induction steps generalizing place with
  | nil => exact h
  | cons name steps ih =>
    rw [walk] at h ⊢
    split at h
    · cases h
    · rename_i hstep
      rw [step_put hnames s hstep]
      exact ih h

end Put

/-- A way that is continued by one step. -/
theorem walk_concat {f : Folder} {place next last : List String} {steps : List String}
    {name : String} (h : f.walk place steps = .ok next) (hlast : f.step next name = .ok last) :
    f.walk place (steps ++ [name]) = .ok last := by
  induction steps generalizing place with
  | nil =>
    cases h
    rw [List.nil_append, walk, hlast]
    rfl
  | cons first steps ih =>
    rw [walk] at h
    rw [List.cons_append, walk]
    split at h
    · cases h
    · exact ih h

/-- What a write has found that succeeds: the place that the file lies in, and the names that lead
from there to something that is no folder. -/
theorem exists_of_write {f after : Folder} {path text : String}
    (h : f.write path text = .ok after) : ∃ p last place names,
      Path.parse path = .ok p ∧ p.endsInSlash = false ∧
      p.steps.getLast? = some last ∧ f.walk [] p.steps.dropLast = .ok place ∧
      f.step place last = .ok names ∧ f.destination names ≠ .folder ∧
      after = f.put names text := by
  simp only [write] at h
  split at h
  · cases h
  rename_i p hp
  split at h
  · cases h
  rename_i last hlast
  split at h
  · cases h
  rename_i place hplace
  split at h
  · cases h
  · cases h
  -- The file is to lie in a folder. Its name is no dots, and no slash follows it.
  split at h
  · cases h
  rename_i hname
  simp only [Bool.or_eq_true, not_or, Bool.not_eq_true] at hname
  split at h
  · cases h
  rename_i names hnames
  split at h
  · cases h
  rename_i hfolder
  cases h
  exact ⟨p, last, place, names, hp, hname.2, hlast, hplace, hnames, hfolder, rfl⟩

/-- What was written to a file is read from it. -/
theorem read_of_write {f after : Folder} {path text : String} (h : f.write path text = .ok after) :
    after.read path = .ok text := by
  obtain ⟨p, last, place, names, hp, hslash, hlast, hplace, hnames, hfolder, rfl⟩ :=
    exists_of_write h
  have hsteps : p.steps = p.steps.dropLast ++ [last] := by
    rw [List.dropLast_append_getLast? last hlast]
  -- The way to the file leads through folders, so it is there after the write as well.
  have hwalk : (f.put names text).walk [] p.steps = .ok names := by
    rw [hsteps]
    exact walk_concat (walk_put hfolder text hplace) (step_put hfolder text hnames)
  simp only [read, hp, hwalk, destination_put_self, hslash]
  rfl

end Folder

end InputScript
