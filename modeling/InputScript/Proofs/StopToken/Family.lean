import InputScript.StopToken
import Mathlib.Algebra.GroupWithZero.Nat
import Mathlib.Data.List.GetD
import Mathlib.Data.List.Induction
import Mathlib.Logic.Relation

/-!
# `InputScript.Proofs.StopToken.Family`: flags that are shared by cloning

Tokens are made and cloned, cancelled, slept on and waited for, in any order. A history of such
operations says by itself which tokens belong together: those that are linked by clonings, in
whatever direction and over however many tokens between them (`TokenOperation.Linked`). A pool of
tokens does not keep the clonings. It gives each token the number of a family, once and for all, and
marks the families that were cancelled.

* `TokenOperation.linked_iff`: two tokens have the same family exactly if they are linked.
* `TokenOperation.isCancelled_iff`: a token is cancelled exactly if one that is linked to it was.
-/

set_option autoImplicit false

namespace InputScript

/-- What can be done with stop tokens. A sleep and a timed wait only begin with their operation, and
others may be performed before they end. -/
inductive TokenOperation where
  /-- Makes a token. -/
  | new
  | clone (token : Nat)
  | cancel (token : Nat)
  /-- Begins to sleep for a span unless the token is cancelled. -/
  | sleep (token : Nat) (span : Span)
  /-- Begins to wait, at most for a span, until the token is cancelled. -/
  | await (token : Nat) (span : Span)
  /-- Lets milliseconds pass. -/
  | pass (millis : Nat)

namespace TokenOperation

/-! ### What a history says -/

/-- The token on which an operation is performed. -/
def token? : TokenOperation → Option Nat
  | new => none
  | clone token => some token
  | cancel token => some token
  | sleep token _ => some token
  | await token _ => some token
  | pass _ => none

/-- Whether an operation adds a token. -/
def adds : TokenOperation → Bool
  | new => true
  | clone _ => true
  | _ => false

/-- The milliseconds that an operation lets pass. -/
def millis : TokenOperation → Nat
  | pass millis => millis
  | _ => 0

/-- How many tokens there are after operations. The first one is there before, and the others are
numbered as they come. -/
def tokens (ops : List TokenOperation) : Nat :=
  1 + ops.countP adds

/-- The time after operations. -/
def clock (ops : List TokenOperation) : Nat :=
  (ops.map millis).sum

/-- Each operation is performed on a token that is there. -/
def Fits (ops : List TokenOperation) : Prop :=
  ∀ before op after, ops = before ++ op :: after → ∀ token, op.token? = some token →
    token < tokens before

instance (ops : List TokenOperation) : Decidable (Fits ops) :=
  decidable_of_iff
    (∀ index : Fin ops.length,
      (ops.get index).token?.all (· < tokens (ops.take index)) = true) <| by
    constructor
    · rintro h before op after rfl token htoken
      have hop := h ⟨before.length, by simp⟩
      simpa [htoken] using hop
    · intro h index
      have hsplit : ops = ops.take index ++ ops.get index :: ops.drop (index + 1) := by
        rw [List.get_eq_getElem, List.getElem_cons_drop, List.take_append_drop]
      simpa [Option.all_eq_true] using h _ _ _ hsplit

/-- One token was made by cloning another. -/
def Cloned (ops : List TokenOperation) (child parent : Nat) : Prop :=
  ∃ before after, ops = before ++ clone parent :: after ∧ child = tokens before

/-- Two tokens are linked by clonings. -/
def Linked (ops : List TokenOperation) : Nat → Nat → Prop :=
  Relation.EqvGen (Cloned ops)

/-- Some token that is linked to this one was cancelled. -/
def IsCancelled (ops : List TokenOperation) (token : Nat) : Prop :=
  ∃ other, cancel other ∈ ops ∧ Linked ops token other

variable {ops more : List TokenOperation} {op : TokenOperation} {token other : Nat}

theorem tokens_concat (ops : List TokenOperation) (op : TokenOperation) :
    tokens (ops ++ [op]) = tokens ops + if op.adds then 1 else 0 := by
  rw [tokens, tokens, List.countP_append, List.countP_singleton, Nat.add_assoc]

theorem clock_append (ops more : List TokenOperation) :
    clock (ops ++ more) = clock ops + clock more := by
  rw [clock, clock, clock, List.map_append, List.sum_append]

/-- A token that is there stays. -/
theorem lt_tokens_append (h : token < tokens ops) (more : List TokenOperation) :
    token < tokens (ops ++ more) := by
  rw [tokens] at h ⊢
  rw [List.countP_append]
  omega

/-- What comes before some operations fits as well. -/
theorem Fits.of_append (h : Fits (ops ++ more)) : Fits ops := by
  rintro before op after rfl
  refine h before op (after ++ more) ?_
  rw [List.append_assoc, List.cons_append]

/-- An operation is performed on a token that is there. -/
theorem Fits.lt_tokens (h : Fits (ops ++ op :: more)) (htoken : op.token? = some token) :
    token < tokens ops :=
  h ops op more rfl token htoken

theorem Fits.lt_tokens_of_mem (h : Fits ops) (hop : op ∈ ops) (htoken : op.token? = some token) :
    token < tokens ops := by
  obtain ⟨before, rest, rfl⟩ := List.append_of_mem hop
  exact lt_tokens_append (h.lt_tokens htoken) _

/-- Tokens stay linked. -/
theorem Linked.append (h : Linked ops token other) (more : List TokenOperation) :
    Linked (ops ++ more) token other := by
  refine Relation.EqvGen.mono ?_ _ _ h
  rintro child parent ⟨before, after, rfl, hchild⟩
  refine ⟨before, after ++ more, ?_, hchild⟩
  rw [List.append_assoc, List.cons_append]

/-- Tokens stay cancelled. -/
theorem IsCancelled.append (h : IsCancelled ops token) (more : List TokenOperation) :
    IsCancelled (ops ++ more) token := by
  obtain ⟨other, hcancel, hlinked⟩ := h
  exact ⟨other, List.mem_append_left more hcancel, hlinked.append more⟩

end TokenOperation

/-! ### What the pool does -/

namespace TokenPool

open TokenOperation (tokens clock)

/-- The pool after an operation. It does not keep the sleeps and waits. -/
def perform (p : TokenPool) : TokenOperation → TokenPool
  | .new => p.add
  | .clone token => p.clone token
  | .cancel token => p.cancel token
  | .sleep _ _ => p
  | .await _ _ => p
  | .pass millis => { p with now := p.now + millis }

/-- The pool after operations. -/
def after (timer : Timer) (ops : List TokenOperation) : TokenPool :=
  ops.foldl perform (start timer)

variable {timer : Timer} {ops : List TokenOperation} {op : TokenOperation} {token other : Nat}

theorem after_concat (timer : Timer) (ops : List TokenOperation) (op : TokenOperation) :
    after timer (ops ++ [op]) = (after timer ops).perform op :=
  List.foldl_append

theorem size_after (timer : Timer) (ops : List TokenOperation) :
    (after timer ops).size = tokens ops := by
  induction ops using List.reverseRecOn with
  | nil => rfl
  | append_singleton ops op ih =>
    rw [after_concat, TokenOperation.tokens_concat, ← ih]
    cases op <;> simp [perform, add, clone, cancel, size, TokenOperation.adds]

theorem now_after (timer : Timer) (ops : List TokenOperation) :
    (after timer ops).now = clock ops := by
  induction ops using List.reverseRecOn with
  | nil => rfl
  | append_singleton ops op ih =>
    rw [after_concat, TokenOperation.clock_append, ← ih]
    cases op <;> rfl

theorem timer_after (timer : Timer) (ops : List TokenOperation) :
    (after timer ops).timer = timer := by
  induction ops using List.reverseRecOn with
  | nil => rfl
  | append_singleton ops op ih =>
    refine Eq.trans ?_ ih
    rw [after_concat]
    cases op <;> rfl

/-- A token that is there keeps its family. -/
theorem family_perform {p : TokenPool} (h : token < p.size) (op : TokenOperation) :
    (p.perform op).family token = p.family token := by
  cases op with
  | new | clone =>
    exact List.getD_append _ _ _ _ h
  | cancel | sleep | await | pass => rfl

theorem family_after_append (h : token < tokens ops) (more : List TokenOperation) :
    (after timer (ops ++ more)).family token = (after timer ops).family token := by
  induction more using List.reverseRecOn with
  | nil => rw [List.append_nil]
  | append_singleton more op ih =>
    have hthere : token < (after timer (ops ++ more)).size := by
      rw [size_after]
      exact TokenOperation.lt_tokens_append h more
    rw [← List.append_assoc, after_concat, family_perform hthere, ih]

/-- A token that was just made has a family of its own. -/
theorem family_add (p : TokenPool) : p.add.family p.size = p.size := by
  simp [family, add, size]

/-- A token that was just cloned has the family of the other. -/
theorem family_clone (p : TokenPool) (token : Nat) :
    (p.clone token).family p.size = p.family token := by
  simp [family, clone, size]

end TokenPool

namespace TokenOperation

open TokenPool (after)

variable (timer : Timer) {ops : List TokenOperation} {token other : Nat}

/-! ### Families and clonings -/

/-- A clone has the family of its original. -/
theorem Cloned.family_eq (hfits : Fits ops) {child parent : Nat} (h : Cloned ops child parent) :
    (after timer ops).family child = (after timer ops).family parent := by
  obtain ⟨before, rest, rfl, rfl⟩ := h
  have hparent : parent < tokens before := hfits.lt_tokens rfl
  have hchild : tokens before < tokens (before ++ [clone parent]) := by
    rw [tokens_concat]
    exact Nat.lt_succ_self _
  have hsplit : before ++ clone parent :: rest = (before ++ [clone parent]) ++ rest := by simp
  calc
    (after timer (before ++ clone parent :: rest)).family (tokens before) =
        ((after timer before).clone parent).family (tokens before) := by
      rw [hsplit, TokenPool.family_after_append hchild, TokenPool.after_concat]
      rfl
    _ = (after timer before).family parent := by
      rw [← TokenPool.size_after, TokenPool.family_clone]
    _ = (after timer (before ++ clone parent :: rest)).family parent :=
      (TokenPool.family_after_append hparent _).symm

/-- Linked tokens have one family. -/
theorem Linked.family_eq (hfits : Fits ops) (h : Linked ops token other) :
    (after timer ops).family token = (after timer ops).family other := by
  induction h with
  | rel _ _ hcloned => exact hcloned.family_eq timer hfits
  | refl _ => rfl
  | symm _ _ _ ih => exact ih.symm
  | trans _ _ _ _ _ first second => exact first.trans second

/-- A token is linked to the one with which its family began. -/
theorem linked_family (hfits : Fits ops) (htoken : token < tokens ops) :
    Linked ops token ((after timer ops).family token) := by
  induction ops using List.reverseRecOn generalizing token with
  | nil =>
    obtain rfl : token = 0 := Nat.lt_one_iff.mp htoken
    exact .refl 0
  | append_singleton ops op ih =>
    by_cases hold : token < tokens ops
    · rw [TokenPool.family_after_append hold]
      exact (ih hfits.of_append hold).append [op]
    · -- The operation has added the token.
      rw [tokens_concat] at htoken
      have hsize : token = (after timer ops).size := by
        rw [TokenPool.size_after]
        split at htoken <;> omega
      rw [TokenPool.after_concat]
      cases op with
      | new =>
        rw [hsize, show ((after timer ops).perform new).family (after timer ops).size =
          (after timer ops).size from TokenPool.family_add _]
        exact .refl _
      | clone parent =>
        have hparent : parent < tokens ops := hfits.lt_tokens rfl
        rw [hsize, show ((after timer ops).perform (clone parent)).family (after timer ops).size =
          (after timer ops).family parent from TokenPool.family_clone _ _]
        have hcloned : Cloned (ops ++ [clone parent]) (after timer ops).size parent :=
          ⟨ops, [], rfl, TokenPool.size_after timer ops⟩
        exact .trans _ _ _ (.rel _ _ hcloned) ((ih hfits.of_append hparent).append _)
      | cancel | sleep | await | pass => exact absurd htoken hold

/-- Two tokens have the same family exactly if they are linked. -/
theorem linked_iff (hfits : Fits ops) (htoken : token < tokens ops) (hother : other < tokens ops) :
    Linked ops token other ↔ (after timer ops).family token = (after timer ops).family other := by
  refine ⟨fun h => h.family_eq timer hfits, fun h => ?_⟩
  have hfirst := linked_family timer hfits htoken
  rw [h] at hfirst
  exact .trans _ _ _ hfirst (.symm _ _ (linked_family timer hfits hother))

/-- Tokens that are there are linked no later. -/
theorem Linked.of_append {more : List TokenOperation} (hfits : Fits (ops ++ more))
    (htoken : token < tokens ops) (hother : other < tokens ops)
    (h : Linked (ops ++ more) token other) : Linked ops token other := by
  have hfamily := h.family_eq .exact hfits
  rw [TokenPool.family_after_append htoken, TokenPool.family_after_append hother] at hfamily
  exact (linked_iff .exact hfits.of_append htoken hother).mpr hfamily

/-! ### Flags -/

/-- The families that were cancelled are those of tokens that were. -/
theorem mem_cancelled_iff (hfits : Fits ops) (family : Nat) :
    family ∈ (after timer ops).cancelled ↔
      ∃ other, cancel other ∈ ops ∧ (after timer ops).family other = family := by
  induction ops using List.reverseRecOn with
  | nil => simp [after, TokenPool.start]
  | append_singleton ops op ih =>
    have hold : (∃ other, cancel other ∈ ops ∧ (after timer (ops ++ [op])).family other = family) ↔
        ∃ other, cancel other ∈ ops ∧ (after timer ops).family other = family := by
      refine exists_congr fun other => and_congr_right fun hcancel => ?_
      rw [TokenPool.family_after_append (hfits.of_append.lt_tokens_of_mem hcancel rfl)]
    simp only [List.mem_append, List.mem_singleton, or_and_right, exists_or, hold,
      ← ih hfits.of_append]
    rw [TokenPool.after_concat]
    cases op with
    | cancel token =>
      simp only [cancel.injEq, exists_eq_left]
      show family ∈ (after timer ops).family token :: (after timer ops).cancelled ↔ _
      rw [List.mem_cons, or_comm, eq_comm]
      rfl
    | new | clone | sleep | await | pass =>
      simp [TokenPool.perform, TokenPool.add, TokenPool.clone]

/-- A token is cancelled exactly if one that is linked to it was. -/
theorem isCancelled_iff (hfits : Fits ops) (htoken : token < tokens ops) :
    (after timer ops).isCancelled token = true ↔ IsCancelled ops token := by
  rw [TokenPool.isCancelled, List.contains_iff_mem, mem_cancelled_iff timer hfits]
  refine exists_congr fun other => and_congr_right fun hcancel => ?_
  rw [linked_iff timer hfits htoken (hfits.lt_tokens_of_mem hcancel rfl), eq_comm]

theorem isCancelled_eq_false_iff (hfits : Fits ops) (htoken : token < tokens ops) :
    (after timer ops).isCancelled token = false ↔ ¬ IsCancelled ops token := by
  rw [← Bool.not_eq_true, isCancelled_iff timer hfits htoken]

end TokenOperation

end InputScript
