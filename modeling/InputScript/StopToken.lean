import InputScript.Timer

/-!
# `InputScript.StopToken`: shared stop flags and the sleeps they cut short

A stop token is a flag that can be raised once and never lowered. Clones of a token are
tokens of the same family and share its flag.

A sleep on a token ends at once when the flag is up, also a sleep of no length; it ends
at once when it has no length; and otherwise it ends when its wait is over or, before
that, when the flag goes up. `Sleep.begin` is that rule, and the engine uses it for every
pause of a run; `Sleep.begins` lists its cases. Whether a sleep that lasted counts as a
full one is `Sleep.isFull`: a sleep that finds both its time come and the flag up may end
either way, and whoever runs it makes the choice.

`isCancelled_cancel_iff` says that raising a flag reaches a whole family and no other.
-/

set_option autoImplicit false

namespace InputScript

/-- How a sleep begins: it is over, with or without its full span having gone by, or it
lasts until a time. -/
inductive Sleep where
  | over (full : Bool)
  | lasting (wake : Nat)
deriving DecidableEq, Repr

namespace Sleep

variable (timer : Timer)

/-- Begins a sleep. -/
def begin (cancelled : Bool) (span : Span) (now : Nat) : Sleep :=
  if cancelled then .over false
  else if span.isZero then .over true
  else .lasting (now + timer.wait span)

/-- How a sleep begins, by what decides it. -/
inductive Begins (cancelled : Bool) (span : Span) (now : Nat) : Sleep → Prop where
  | cut (h : cancelled = true) : Begins cancelled span now (.over false)
  | skipped (hgoes : cancelled = false) (hempty : span.isZero = true) :
      Begins cancelled span now (.over true)
  | lasts (hgoes : cancelled = false) (hlong : span.isZero = false) :
      Begins cancelled span now (.lasting (now + timer.wait span))

/-- The flag is looked at first, so that it cuts an empty sleep short as well. -/
theorem begins (cancelled : Bool) (span : Span) (now : Nat) :
    Begins timer cancelled span now (begin timer cancelled span now) := by
  rw [begin]
  cases cancelled with
  | true => exact .cut rfl
  | false =>
    cases hempty : span.isZero with
    | true => exact .skipped rfl hempty
    | false => exact .lasts rfl hempty

/-- Whether a sleep until a time counts as a full one when it is over: not if the flag went
up before that time. At the time itself it is `tie` that decides. -/
def isFull (cancelled tie : Bool) (wake now : Nat) : Bool :=
  !cancelled || (decide (wake ≤ now) && tie)

/-- A sleep that no flag cuts short is a full one. -/
@[simp] theorem isFull_of_goes (tie : Bool) (wake now : Nat) :
    isFull false tie wake now = true := rfl

/-- A sleep that is cut short before its time is none. -/
theorem isFull_of_early {wake now : Nat} (h : now < wake) (tie : Bool) :
    isFull true tie wake now = false := by
  simp [isFull, Nat.not_le_of_lt h]

/-- A sleep that finds its time come and the flag up ends either way. -/
theorem isFull_of_due {wake now : Nat} (h : wake ≤ now) (tie : Bool) :
    isFull true tie wake now = tie := by
  simp [isFull, h]

end Sleep

/-- Stop tokens on a common clock. A token is known by its number. -/
structure TokenPool where
  timer : Timer
  /-- The family of each token: the number of the token that the family began with. -/
  families : List Nat
  /-- The families whose flag is up. -/
  cancelled : List Nat
  now : Nat

namespace TokenPool

/-- One token, at time zero. -/
def start (timer : Timer) : TokenPool := ⟨timer, [0], [], 0⟩

/-- The number of tokens. -/
def size (p : TokenPool) : Nat :=
  p.families.length

/-- The family of a token. -/
def family (p : TokenPool) (token : Nat) : Nat :=
  p.families.getD token token

/-- Whether a token's flag is up. -/
def isCancelled (p : TokenPool) (token : Nat) : Bool :=
  p.cancelled.contains (p.family token)

/-- Adds a token of a new family. -/
def add (p : TokenPool) : TokenPool :=
  { p with families := p.families ++ [p.size] }

/-- Adds a token of the family of another. -/
def clone (p : TokenPool) (token : Nat) : TokenPool :=
  { p with families := p.families ++ [p.family token] }

/-- Raises the flag of a token's family. -/
def cancel (p : TokenPool) (token : Nat) : TokenPool :=
  { p with cancelled := p.family token :: p.cancelled }

/-- Sleeps on a token while nothing else happens: whether the whole span went by. -/
def sleep (p : TokenPool) (token : Nat) (span : Span) : Bool × TokenPool :=
  match Sleep.begin p.timer (p.isCancelled token) span p.now with
  | .over full => (full, p)
  | .lasting wake => (true, { p with now := wake })

/-- Sleeps on a token while another one is cancelled after a delay: whether the whole
span went by, and when the sleep ended. Time goes on until both are over. A sleep that is
due at the very time of the cancellation is a full one if `tie` says so. -/
def sleepWhileCancelling (p : TokenPool) (token : Nat) (span delay : Span) (other : Nat)
    (tie : Bool) : Bool × Nat × TokenPool :=
  let cancelTime := p.now + p.timer.wait delay
  let (full, ended) : Bool × Nat :=
    match Sleep.begin p.timer (p.isCancelled token) span p.now with
    | .over full => (full, p.now)
    | .lasting wake =>
      if p.family other = p.family token && decide (cancelTime ≤ wake) then
        (Sleep.isFull true tie wake cancelTime, cancelTime)
      else (true, wake)
  (full, ended, { p.cancel other with now := max ended cancelTime })

/-- Waits for a token to be cancelled, at most for a span, while nothing else happens:
whether it is cancelled. -/
def await (p : TokenPool) (token : Nat) (span : Span) : Bool × TokenPool :=
  if p.isCancelled token then (true, p) else (false, { p with now := p.now + p.timer.wait span })

/-- A flag is up after a cancellation if it was up before or the token is of the same
family. -/
theorem isCancelled_cancel_iff (p : TokenPool) (token other : Nat) :
    (p.cancel token).isCancelled other = true ↔
      p.isCancelled other = true ∨ p.family other = p.family token := by
  simp only [isCancelled, cancel, family, List.contains_cons, Bool.or_eq_true, beq_iff_eq]
  exact Or.comm

end TokenPool

end InputScript
