import InputScript.Script.Compile

/-!
# `InputScript.Proofs.Catalog.Builtin`: what the built-in catalog makes of a line

Every entry of the built-in catalog makes the built-in command of its own name, and no two
of the names agree when case is ignored. A line that compiles therefore names exactly one
built-in command, whatever the case of its letters, and that command was prepared from the
line's parameters.

* `Builtin.eq_of_sameName`: the names tell the commands apart.
* `mem_builtin`: what an entry of the catalog is.
* `compileLine_builtin`: a line with the name of a command and as many parameters as it takes.
* `builtin_of_compileLine`: what a line that compiles has gone through.
-/

set_option autoImplicit false

namespace InputScript

open Text

/-- Built-in commands whose names agree up to case are the same. -/
theorem Builtin.eq_of_sameName {a b : Builtin} (h : sameName a.name b.name = true) : a = b := by
  revert h
  cases a <;> cases b <;> decide

/-- Built-in commands of one name are the same. -/
theorem Builtin.name_injective {a b : Builtin} (h : a.name = b.name) : a = b :=
  eq_of_sameName (by rw [h]; exact sameName_refl _)

namespace Catalog

/-- An entry of the built-in catalog makes the built-in command of its name. A jump and a
label take one parameter. -/
theorem mem_builtin {d : Descriptor} (h : d ∈ builtin.entries) :
    ∃ b : Builtin, d.kind = .builtin b ∧ d.name = b.name ∧
      (b = .call ∨ b = .label → d.arity = .exactly 1) := by
  simp only [builtin, List.mem_cons, List.not_mem_nil, or_false] at h
  rcases h with rfl | rfl | rfl | rfl | rfl | rfl | rfl | rfl | rfl | rfl | rfl | rfl | rfl
  all_goals exact ⟨_, rfl, rfl, by simp [descriptor]⟩

/-- A line under the name of a built-in command, with as many parameters as it takes, compiles as
the command is prepared. -/
theorem compileLine_builtin {b : Builtin} {arity : Arity} {usage : String} {params : List String}
    (hfind : builtin.find? b.name = some (descriptor b arity usage))
    (hcount : arity.accepts params.length = true) (number : Nat) (source : Source) :
    builtin.compileLine source ⟨number, b.name, params⟩ =
      match b.prepare ⟨number, params, source⟩ with
      | .ok prepared => .ok ⟨number, prepared.params, prepared.command⟩
      | .error (.invalid reason) => .error (.invalidParameters b.name number reason)
      | .error (.unresolved name) => .error (.unresolvedTarget name number) := by
  rw [compileLine, hfind]
  cases hprepare : b.prepare ⟨number, params, source⟩ with
  | ok prepared => simp only [descriptor, hcount, if_true, CommandKind.prepare, hprepare]
  | error e =>
    cases e <;> simp only [descriptor, hcount, if_true, CommandKind.prepare, hprepare]

/-- A line that the built-in catalog compiles names a built-in command, has as many
parameters as that command takes, and was prepared by it. -/
theorem builtin_of_compileLine {source : Source} {c : SourceLine} {i : Instruction}
    (h : builtin.compileLine source c = .ok i) :
    ∃ b : Builtin, sameName b.name c.name = true ∧
      b.prepare ⟨c.number, c.params, source⟩ = .ok ⟨i.params, i.command⟩ ∧
      (b = .call ∨ b = .label → c.params.length = 1) := by
  rw [compileLine] at h
  split at h
  · cases h
  · rename_i d hd
    obtain ⟨b, hkind, hname, harity⟩ := mem_builtin (List.mem_of_find?_eq_some hd)
    -- The entry was found by the name on the line.
    have hsame : sameName d.name c.name = true := sameName_of_find? hd
    rw [hname] at hsame
    split at h
    · rename_i haccepts
      split at h
      · rename_i prepared hprepared
        cases h
        rw [hkind] at hprepared
        refine ⟨b, hsame, hprepared, ?_⟩
        intro hb
        rw [harity hb, Arity.accepts_exactly] at haccepts
        exact haccepts
      · cases h
      · cases h
    · cases h

/-- The instruction of a line has the name of the built-in command that the line names. -/
theorem name_eq_iff_of_compileLine {source : Source} {c : SourceLine} {i : Instruction}
    (h : builtin.compileLine source c = .ok i) (b : Builtin) :
    i.name = b.name ↔ sameName c.name b.name = true := by
  obtain ⟨b', hsame, hprepared, -⟩ := builtin_of_compileLine h
  have hname : i.name = b'.name := CommandKind.name_of_prepare_builtin hprepared
  rw [hname]
  constructor
  · intro hb
    rw [← hb]
    exact sameName_symm hsame
  · intro hb
    rw [Builtin.eq_of_sameName (sameName_trans hsame hb)]

end Catalog

end InputScript
