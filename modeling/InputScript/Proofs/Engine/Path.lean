import InputScript.Proofs.Engine.Control
import Mathlib.Data.List.Chain
import Mathlib.Data.List.Induction
import Mathlib.Data.List.Nodup
import Mathlib.Data.List.Perm.Subperm

/-!
# `InputScript.Proofs.Engine.Path`: the indices at which a run has been

The instructions that have begun in a run lie at indices of its script, from the first one on, and
each index is that to which the one before hands over (`Script.IsPath`). Apart from a jump that
leads to its own line or one before it, an instruction hands over to a greater index. So a run that
has been at an index twice has been at such a jump, and a script without one is passed through at
increasing indices.

* `Script.InOrder.isPath`: what has begun in order is a path.
* `Script.successor?_cases`: an instruction hands over to a greater index, or it jumps back.
* `Script.IsPath.exists_jumpsBack`, `Script.IsPath.pairwise_lt`: from one step to a whole path.
-/

set_option autoImplicit false

namespace InputScript

/-- Whether an instruction is a jump to a line from one up to its own. -/
def Instruction.JumpsBack (i : Instruction) : Prop :=
  ∃ target : Int, i.command = .call target ∧ 1 ≤ target ∧ target ≤ i.line

namespace Script

/-- Whether each jump of a script has a target that is no line, or a line behind its own. -/
def JumpsForward (script : Script) : Prop :=
  ∀ i ∈ script.instructions, ∀ target : Int, i.command = .call target →
    target ≤ 0 ∨ (i.line : Int) < target

/-- The indices of the instructions that have begun among the events of a run, in order. -/
def path (script : Script) (part : List (Nat × Event)) : List Nat :=
  (part.filterMap fun entry => entry.2.begun?).map fun begun => script.indexForLine begun.1

/-- Whether indices are those of instructions from the first one on, each of which hands over to the
next. -/
structure IsPath (script : Script) (indices : List Nat) : Prop where
  first : ∀ index, indices.head? = some index → index = 0
  steps : indices.IsChain fun index next => script.successor? index = some next
  inside : ∀ index ∈ indices, index < script.length

variable {script : Script} {index next : Nat} {indices : List Nat} {part : List (Nat × Event)}

/-! ### One step -/

/-- Control passes to a greater index, unless the instruction jumps back. -/
theorem successor?_cases (hsorted : script.instructions.Pairwise fun a b => a.line < b.line)
    (h : script.successor? index = some next) :
    index < next ∨ ∃ i, script.instructions[index]? = some i ∧ i.JumpsBack := by
  cases hi : script.instructions[index]? with
  | none => simp [successor?, hi] at h
  | some i =>
    by_cases hcall : ∃ target : Int, i.command = .call target ∧ 0 < target
    · obtain ⟨target, hcall, hforward⟩ := hcall
      rw [successor?_jump hi hcall hforward, Option.some.injEq] at h
      subst h
      by_cases hback : target ≤ i.line
      · exact .inr ⟨i, rfl, target, hcall, hforward, hback⟩
      · have hle : i.line + 1 ≤ target.toNat := by omega
        have hmono := script.indexForLine_mono hle
        rw [indexForLine_line_succ hsorted hi] at hmono
        exact .inl hmono
    · have hpass : i.command.HandsOver := by
        constructor
        · intro hstop
          simp [successor?, hi, hstop] at h
        · intro target htarget
          exact Int.not_lt.mp fun hforward => hcall ⟨target, htarget, hforward⟩
      rw [successor?_pass hi hpass, Option.some.injEq] at h
      exact .inl (h ▸ Nat.lt_succ_self index)

/-- In a script whose jumps lead forward no instruction jumps back. -/
theorem JumpsForward.not_jumpsBack (h : script.JumpsForward) {i : Instruction}
    (hi : script.instructions[index]? = some i) : ¬i.JumpsBack := by
  rintro ⟨target, hcall, hlow, hback⟩
  have hcases := h i (List.mem_of_getElem? hi) target hcall
  omega

/-! ### A path -/

/-- A path on which no instruction jumps back goes to greater indices only. -/
theorem IsPath.pairwise_lt (hsorted : script.instructions.Pairwise fun a b => a.line < b.line)
    (h : script.IsPath indices)
    (hforward : ∀ index ∈ indices, ∀ i, script.instructions[index]? = some i → ¬i.JumpsBack) :
    indices.Pairwise (· < ·) := by
  refine List.IsChain.pairwise (h.steps.imp_of_mem_imp ?_)
  intro index next hindex _ hnext
  rcases successor?_cases hsorted hnext with hlt | ⟨i, hi, hback⟩
  · exact hlt
  · exact absurd hback (hforward index hindex i hi)

/-- A path that has been at an index twice has been at an instruction that jumps back. -/
theorem IsPath.exists_jumpsBack
    (hsorted : script.instructions.Pairwise fun a b => a.line < b.line)
    (h : script.IsPath indices) (htwice : ¬indices.Nodup) :
    ∃ index ∈ indices, ∃ i, script.instructions[index]? = some i ∧ i.JumpsBack := by
  by_contra hnone
  refine htwice (h.pairwise_lt hsorted ?_).nodup
  intro index hindex i hi hback
  exact hnone ⟨index, hindex, i, hi, hback⟩

/-- A path to greater indices only is no longer than the script. -/
theorem IsPath.length_le (h : script.IsPath indices) (hlt : indices.Pairwise (· < ·)) :
    indices.length ≤ script.length := by
  have hsubset : indices ⊆ List.range script.length := by
    intro index hindex
    exact List.mem_range.mpr (h.inside index hindex)
  calc
    indices.length ≤ (List.range script.length).length :=
      (List.subperm_of_subset hlt.nodup hsubset).length_le
    _ = script.length := List.length_range

/-! ### The path of a run -/

theorem path_append (part more : List (Nat × Event)) :
    script.path (part ++ more) = script.path part ++ script.path more := by
  rw [path, List.filterMap_append, List.map_append]
  rfl

/-- Control is at the first instruction, or where the last one of the path hands it. -/
theorem control?_eq_of_path : script.control? part =
    match (script.path part).getLast? with
    | none => some 0
    | some index => script.successor? index := by
  rw [control?, inProgress?, path, List.getLast?_map]
  cases (part.filterMap fun entry => entry.2.begun?).getLast? <;> rfl

/-- Behind each event the run was in order. -/
theorem InOrder.of_append {more : List (Nat × Event)} (h : script.InOrder (part ++ more)) :
    script.InOrder part := by
  intro before time line name after hpart
  refine h before time line name (after ++ more) ?_
  rw [hpart, List.append_assoc]
  rfl

/-- One more index, at which control is behind the last one. -/
theorem IsPath.concat (h : script.IsPath (script.path part)) (hinside : next < script.length)
    (hnext : script.control? part = some next) : script.IsPath (script.path part ++ [next]) := by
  rw [control?_eq_of_path] at hnext
  refine ⟨?_, ?_, ?_⟩
  · intro index hindex
    cases hpath : script.path part with
    | nil =>
      rw [hpath] at hindex hnext
      exact (Option.some.inj hindex).symm.trans (Option.some.inj hnext).symm
    | cons first rest =>
      rw [hpath] at hindex
      exact h.first index (by rw [hpath]; exact hindex)
  · refine List.isChain_append.mpr ⟨h.steps, List.isChain_singleton _, ?_⟩
    intro index hindex next' hnext'
    obtain rfl := Option.some.inj hnext'
    rwa [Option.mem_def.mp hindex] at hnext
  · rw [List.forall_mem_append, List.forall_mem_singleton]
    exact ⟨h.inside, hinside⟩

/-- The instructions that have begun in order lie on a path. -/
theorem InOrder.isPath (hsorted : script.instructions.Pairwise fun a b => a.line < b.line)
    (h : script.InOrder part) : script.IsPath (script.path part) ∧
      (script.path part).map (fun index =>
        (script.instructions[index]?).map fun i => (i.line, i.name)) =
          (part.filterMap fun entry => entry.2.begun?).map some := by
  induction part using List.reverseRecOn with
  | nil => exact ⟨⟨by rintro _ ⟨⟩, .nil, by rintro _ ⟨⟩⟩, rfl⟩
  | append_singleton part entry ih =>
    obtain ⟨hpath, hspec⟩ := ih h.of_append
    obtain ⟨time, event⟩ := entry
    by_cases hbegun : ∃ line name, event = .executing line name
    · obtain ⟨line, name, rfl⟩ := hbegun
      obtain ⟨i, hnext, rfl, rfl⟩ := h part time line name [] rfl
      obtain ⟨index, hcontrol, hi⟩ := Option.bind_eq_some_iff.mp hnext
      have hlast : script.path [(time, .executing i.line i.name)] = [index] :=
        congrArg (fun index => [index]) (indexForLine_line hsorted hi)
      rw [path_append, hlast]
      refine ⟨hpath.concat (List.getElem?_eq_some_iff.mp hi).1 hcontrol, ?_⟩
      rw [List.map_append, hspec, List.filterMap_append, List.map_append]
      simp [hi, Event.begun?]
    · have hnone : event.begun? = none := by
        cases event with
        | executing line name => exact absurd ⟨line, name, rfl⟩ hbegun
        | _ => rfl
      have hsame : (part ++ [(time, event)]).filterMap (fun entry => entry.2.begun?) =
          part.filterMap fun entry => entry.2.begun? := by
        simp [hnone]
      rw [path, hsame]
      exact ⟨hpath, hspec⟩

end Script

end InputScript
