import InputScript.Proofs.StopToken.Family

/-!
# `InputScript.Proofs.StopToken.Sleeping`: sleeps that go on while others act

A pool lets one sleep go by, or one sleep and one cancellation. Here any number of sleeps and timed
waits may go on at once, while tokens are made, cloned and cancelled and time passes. Each of them
begins as `Sleep.begin` says and is looked at after every operation: it is over when its time has
gone by or its token is cancelled. A cancellation that comes just when its time does may find it
over in full or cut it short, and nothing is assumed of which of the two happens (`Nap.tie`).

* `TokenOperation.letsGoBy_after`: what a pool lets go by are histories of this kind.
* `TokenOperation.pending`, `TokenOperation.over_when_passed`, `TokenOperation.over_when_cut`: how a
  sleep goes on, and when it is over.
* `TokenOperation.flags_and_sleeps`: flags and sleeps in any history of tokens.
-/

set_option autoImplicit false

namespace InputScript

/-- A sleep or a wait that has begun. -/
structure Nap where
  token : Nat
  /-- The time at which it is over at the latest. -/
  wake : Nat
  /-- Whether its whole span went by if its token is cancelled at that very time. -/
  tie : Bool
  /-- Whether its whole span went by and when it ended, once both are certain. -/
  ended : Option (Bool × Nat)
deriving DecidableEq, Repr

namespace Nap

/-- Begins a sleep or a wait. -/
def begin (p : TokenPool) (token : Nat) (span : Span) (tie : Bool) : Nap :=
  match Sleep.begin p.timer (p.isCancelled token) span p.now with
  | .over full => ⟨token, p.now, tie, some (full, p.now)⟩
  | .lasting wake => ⟨token, wake, tie, none⟩

/-- Looks whether it is certain by now how a sleep or a wait ends. -/
def look (p : TokenPool) (n : Nap) : Nap :=
  match n.ended with
  | some _ => n
  | none =>
    if n.wake < p.now then { n with ended := some (true, n.wake) }
    else if p.isCancelled n.token then
      { n with ended := some (Sleep.isFull true n.tie n.wake p.now, p.now) }
    else n

/-- What a sleep or a wait has answered by now, and when. One whose time has just come answers that
its whole span went by, unless its token is still cancelled at that time. -/
def answer? (p : TokenPool) (n : Nap) : Option (Bool × Nat) :=
  n.ended.or (if n.wake ≤ p.now then some (true, n.wake) else none)

variable {p : TokenPool} {token wake : Nat} {span : Span} {tie : Bool}

/-- On a cancelled token it is over at once. -/
theorem begin_of_cancelled (h : p.isCancelled token = true) :
    begin p token span tie = ⟨token, p.now, tie, some (false, p.now)⟩ := by
  rw [begin, h]
  rfl

/-- Without a span it is over at once as well. -/
theorem begin_of_empty (h : p.isCancelled token = false) (hempty : span.isZero = true) :
    begin p token span tie = ⟨token, p.now, tie, some (true, p.now)⟩ := by
  simp [begin, Sleep.begin, h, hempty]

/-- Otherwise it lasts. -/
theorem begin_of_lasting (h : p.isCancelled token = false) (hlong : span.isZero = false) :
    begin p token span tie = ⟨token, p.now + p.timer.wait span, tie, none⟩ := by
  simp [begin, Sleep.begin, h, hlong]

/-- What is over stays as it is. -/
theorem look_of_ended (ending : Bool × Nat) :
    look p ⟨token, wake, tie, some ending⟩ = ⟨token, wake, tie, some ending⟩ := rfl

theorem look_of_over (h : wake < p.now) :
    look p ⟨token, wake, tie, none⟩ = ⟨token, wake, tie, some (true, wake)⟩ := by
  simp [look, h]

theorem look_of_cancelled (h : p.now ≤ wake) (hcancelled : p.isCancelled token = true) :
    look p ⟨token, wake, tie, none⟩ =
      ⟨token, wake, tie, some (Sleep.isFull true tie wake p.now, p.now)⟩ := by
  simp [look, Nat.not_lt.mpr h, hcancelled]

theorem look_of_asleep (h : p.now ≤ wake) (hgoes : p.isCancelled token = false) (tie : Bool) :
    look p ⟨token, wake, tie, none⟩ = ⟨token, wake, tie, none⟩ := by
  simp [look, Nat.not_lt.mpr h, hgoes]

theorem answer?_of_ended (ending : Bool × Nat) :
    answer? p ⟨token, wake, tie, some ending⟩ = some ending := rfl

theorem answer?_of_due (h : wake ≤ p.now) :
    answer? p ⟨token, wake, tie, none⟩ = some (true, wake) := by
  simp [answer?, h]

theorem answer?_of_asleep (h : p.now < wake) : answer? p ⟨token, wake, tie, none⟩ = none := by
  simp [answer?, Nat.not_le.mpr h]

end Nap

/-- A pool with all sleeps and waits that have begun, in order. -/
structure Sleepers where
  pool : TokenPool
  naps : List Nap

namespace TokenOperation

/-- Whether an operation begins a sleep or a wait. -/
def begins : TokenOperation → Bool
  | sleep .. => true
  | await .. => true
  | _ => false

/-- How many sleeps and waits have begun in operations. -/
def begun (ops : List TokenOperation) : Nat :=
  ops.countP begins

end TokenOperation

namespace Sleepers

open TokenOperation (begun)

/-- The sleep or wait that begins with an operation, if one does. -/
def newNap? (p : TokenPool) (tie : Bool) : TokenOperation → Option Nap
  | .sleep token span => some (.begin p token span tie)
  | .await token span => some (.begin p token span tie)
  | _ => none

variable (timer : Timer) (ties : Nat → Bool)

/-- Performs an operation, and then looks who is awake. The sleep or wait of each number comes with
its way to end when it is cancelled just in time. -/
def perform (s : Sleepers) (op : TokenOperation) : Sleepers where
  pool := s.pool.perform op
  naps := (s.naps ++ (newNap? s.pool (ties s.naps.length) op).toList).map
    (Nap.look (s.pool.perform op))

/-- Performs operations one after the other. -/
def performAll (s : Sleepers) (ops : List TokenOperation) : Sleepers :=
  ops.foldl (perform ties) s

/-- What has become of sleeps and waits after operations on one token. -/
def after (ops : List TokenOperation) : Sleepers :=
  performAll ties ⟨.start timer, []⟩ ops

/-- What is answered by the sleep or the wait of a number, if it is over, and when. A sleep answers
whether its whole span went by. -/
def answer? (s : Sleepers) (number : Nat) : Option (Bool × Nat) :=
  s.naps[number]?.bind (Nap.answer? s.pool)

variable {number : Nat} {n : Nap}

theorem after_concat (ops : List TokenOperation) (op : TokenOperation) :
    after timer ties (ops ++ [op]) = (after timer ties ops).perform ties op :=
  List.foldl_append

/-- Sleeps and waits that have begun make no difference to those that begin later. -/
theorem performAll_of_begun (p : TokenPool) (naps : List Nap) (ops : List TokenOperation) :
    let later := performAll (fun number => ties (naps.length + number)) ⟨p, []⟩ ops
    ∃ naps', performAll ties ⟨p, naps⟩ ops = ⟨later.pool, naps' ++ later.naps⟩ ∧
      naps'.length = naps.length := by
  induction ops using List.reverseRecOn with
  | nil => exact ⟨naps, by simp [performAll], rfl⟩
  | append_singleton ops op ih =>
    obtain ⟨naps', hsame, hlength⟩ := ih
    generalize hlater : performAll (fun number => ties (naps.length + number)) ⟨p, []⟩ ops =
      later at hsame
    refine ⟨naps'.map (Nap.look (later.pool.perform op)), ?_, by rw [List.length_map, hlength]⟩
    simp only [performAll, List.foldl_append] at hsame hlater ⊢
    rw [hsame, hlater]
    simp [perform, hlength]

/-- The pool does not depend on who is asleep. -/
theorem pool_after (ops : List TokenOperation) :
    (after timer ties ops).pool = TokenPool.after timer ops := by
  induction ops using List.reverseRecOn with
  | nil => rfl
  | append_singleton ops op ih =>
    rw [after_concat, TokenPool.after_concat, ← ih]
    rfl

theorem length_naps_after (ops : List TokenOperation) :
    (after timer ties ops).naps.length = begun ops := by
  induction ops using List.reverseRecOn with
  | nil => rfl
  | append_singleton ops op ih =>
    rw [after_concat, begun, List.countP_append, ← begun, ← ih]
    cases op <;> simp [perform, newNap?, TokenOperation.begins]

variable {timer ties}

/-- A sleep or a wait that has begun is looked at after each operation. -/
theorem getElem?_naps_concat {ops : List TokenOperation}
    (h : (after timer ties ops).naps[number]? = some n) (op : TokenOperation) :
    (after timer ties (ops ++ [op])).naps[number]? =
      some (n.look (TokenPool.after timer (ops ++ [op]))) := by
  obtain ⟨hlt, -⟩ := List.getElem?_eq_some_iff.mp h
  rw [after_concat, perform, List.getElem?_map, List.getElem?_append_left hlt, h,
    TokenPool.after_concat, pool_after]
  rfl

/-- What is over stays as it is. -/
theorem getElem?_naps_append {ops : List TokenOperation} {token wake : Nat} {tie : Bool}
    {ending : Bool × Nat}
    (h : (after timer ties ops).naps[number]? = some ⟨token, wake, tie, some ending⟩)
    (more : List TokenOperation) :
    (after timer ties (ops ++ more)).naps[number]? = some ⟨token, wake, tie, some ending⟩ := by
  induction more using List.reverseRecOn with
  | nil => rwa [List.append_nil]
  | append_singleton more op ih =>
    rw [← List.append_assoc, getElem?_naps_concat ih, Nap.look_of_ended]

variable (timer ties)

/-- A sleep that begins is the next one. -/
theorem getElem?_naps_sleep (ops : List TokenOperation) (token : Nat) (span : Span) :
    (after timer ties (ops ++ [.sleep token span])).naps[begun ops]? =
      some ((Nap.begin (TokenPool.after timer ops) token span (ties (begun ops))).look
        (TokenPool.after timer ops)) := by
  rw [after_concat, perform, List.getElem?_map, length_naps_after, pool_after,
    ← length_naps_after timer ties]
  simp [newNap?, TokenPool.perform]

end Sleepers

/-! ### What a pool lets go by -/

namespace TokenPool

variable (ties : Nat → Bool) (p : TokenPool) (token : Nat) (span : Span)

/-- What the first sleep or wait answers among operations on a pool, and the pool after them. -/
def follow (ops : List TokenOperation) : Option (Bool × Nat) × TokenPool :=
  let s := Sleepers.performAll ties ⟨p, []⟩ ops
  (s.answer? 0, s.pool)

/-- A token is cancelled in the same way at any time. -/
theorem cancel_at (now other : Nat) :
    ({ p with now } : TokenPool).cancel other = { p.cancel other with now } := rfl

/-- A flag is the same at any time. -/
theorem isCancelled_at (now : Nat) :
    ({ p with now } : TokenPool).isCancelled token = p.isCancelled token := rfl

/-- A sleep while nothing else happens begins, and then time passes until it is over. -/
theorem sleep_eq :
    let result := p.sleep token span
    p.follow ties [.sleep token span, .pass (result.2.now - p.now)] =
      (some (result.1, result.2.now), result.2) := by
  have hsleep := Sleep.begins p.timer (p.isCancelled token) span p.now
  simp only [follow, Sleepers.performAll, List.foldl, Sleepers.perform, Sleepers.newNap?, Nap.begin,
    sleep]
  generalize Sleep.begin p.timer (p.isCancelled token) span p.now = s at hsleep
  cases hsleep with
  | cut | skipped => simp [perform, Nap.look_of_ended, Sleepers.answer?, Nap.answer?_of_ended]
  | lasts hgoes hlong =>
    have hasleep := Nap.look_of_asleep (Nat.le_add_right p.now (p.timer.wait span)) hgoes
      (ties 0)
    have hdue := Nap.look_of_asleep (p := { p with now := p.now + p.timer.wait span })
      (Nat.le_refl _) hgoes (ties 0)
    simp [perform, hasleep, hdue, Sleepers.answer?, Nap.answer?_of_due]

/-- So does a timed wait, which answers the other way round. -/
theorem await_eq :
    let result := p.await token span
    p.follow ties [.await token span, .pass (result.2.now - p.now)] =
      (some (!result.1, result.2.now), result.2) := by
  have hsleep := Sleep.begins p.timer (p.isCancelled token) span p.now
  simp only [follow, Sleepers.performAll, List.foldl, Sleepers.perform, Sleepers.newNap?, Nap.begin,
    await]
  generalize Sleep.begin p.timer (p.isCancelled token) span p.now = s at hsleep
  cases hsleep with
  | cut hcancelled =>
    simp [perform, Nap.look_of_ended, Sleepers.answer?, Nap.answer?_of_ended, hcancelled]
  | skipped hgoes hempty =>
    have hempty := (p.timer.wait_eq_zero_iff span).mpr hempty
    simp [perform, Nap.look_of_ended, Sleepers.answer?, Nap.answer?_of_ended, hgoes, hempty]
  | lasts hgoes hlong =>
    have hasleep := Nap.look_of_asleep (Nat.le_add_right p.now (p.timer.wait span)) hgoes
      (ties 0)
    have hdue := Nap.look_of_asleep (p := { p with now := p.now + p.timer.wait span })
      (Nat.le_refl _) hgoes (ties 0)
    simp [perform, hasleep, hdue, hgoes, Sleepers.answer?, Nap.answer?_of_due]

/-- A sleep while another token is cancelled begins, the token is cancelled after its delay, and
then time passes until the sleep is over, if it is not yet. -/
theorem sleepWhileCancelling_eq (delay : Span) (other : Nat) :
    let result := p.sleepWhileCancelling token span delay other (ties 0)
    p.follow ties [.sleep token span, .pass (p.timer.wait delay), .cancel other,
        .pass (result.2.2.now - (p.now + p.timer.wait delay))] =
      (some (result.1, result.2.1), result.2.2) := by
  have hsleep := Sleep.begins p.timer (p.isCancelled token) span p.now
  simp only [follow, Sleepers.performAll, List.foldl, Sleepers.perform, Sleepers.newNap?, Nap.begin,
    sleepWhileCancelling, perform]
  generalize Sleep.begin p.timer (p.isCancelled token) span p.now = s at hsleep
  generalize hcancel : p.now + p.timer.wait delay = cancelTime
  have hpool := cancel_at p cancelTime other
  have hlast (ended : Nat) : cancelTime + (max ended cancelTime - cancelTime) =
      max ended cancelTime :=
    Nat.add_sub_cancel' (Nat.le_max_right _ _)
  cases hsleep with
  | cut | skipped =>
    simp only [hpool, hlast]
    rfl
  | lasts hgoes hlong =>
    have hbegins := Nap.look_of_asleep (Nat.le_add_right p.now (p.timer.wait span)) hgoes
      (ties 0)
    generalize p.now + p.timer.wait span = wake at hbegins
    simp only [Option.toList, List.nil_append, List.append_nil, List.map, List.length_nil, hbegins,
      hpool, hlast, Sleepers.answer?, List.getElem?_cons_zero, Option.bind_some]
    rcases Nat.lt_or_ge wake cancelTime with hover | hlasts
    · rw [Nap.look_of_over (p := { p with now := cancelTime }) hover]
      simp [Nap.look_of_ended, Nap.answer?_of_ended, Nat.not_le.mpr hover,
        Nat.max_eq_right (Nat.le_of_lt hover)]
    · -- The sleep goes on until the other token is cancelled.
      rw [Nap.look_of_asleep (p := { p with now := cancelTime }) hlasts
        ((isCancelled_at ..).trans hgoes)]
      by_cases hsame : p.family other = p.family token
      · have hflag : (p.cancel other).isCancelled token = true :=
          (isCancelled_cancel_iff p other token).mpr (.inr hsame.symm)
        rw [Nap.look_of_cancelled (p := { p.cancel other with now := cancelTime }) hlasts
          ((isCancelled_at ..).trans hflag)]
        simp [Nap.look_of_ended, Nap.answer?_of_ended, hsame, hlasts]
      · have hflag : (p.cancel other).isCancelled token = false := by
          rw [← Bool.not_eq_true, isCancelled_cancel_iff, hgoes]
          rintro (h | h)
          · cases h
          · exact hsame h.symm
        rw [Nap.look_of_asleep (p := { p.cancel other with now := cancelTime }) hlasts
          ((isCancelled_at ..).trans hflag)]
        simp only [hsame, decide_false, Bool.false_and, Bool.false_eq_true, if_false,
          Nat.max_eq_left hlasts]
        rw [Nap.look_of_asleep (p := { p.cancel other with now := wake }) (Nat.le_refl _)
          ((isCancelled_at ..).trans hflag), Nap.answer?_of_due (Nat.le_refl _)]

/-- The first sleep or wait among more operations is the next one in the whole history. -/
theorem follow_after (timer : Timer) (ops more : List TokenOperation) :
    (after timer ops).follow (fun number => ties (TokenOperation.begun ops + number)) more =
      ((Sleepers.after timer ties (ops ++ more)).answer? (TokenOperation.begun ops),
        after timer (ops ++ more)) := by
  obtain ⟨naps', hsame, hlength⟩ := Sleepers.performAll_of_begun ties (after timer ops)
    (Sleepers.after timer ties ops).naps more
  rw [Sleepers.length_naps_after] at hsame hlength
  have hwhole : Sleepers.after timer ties (ops ++ more) =
      Sleepers.performAll ties ⟨after timer ops, (Sleepers.after timer ties ops).naps⟩ more := by
    rw [← Sleepers.pool_after timer ties]
    exact List.foldl_append
  rw [← Sleepers.pool_after timer ties (ops ++ more), hwhole, hsame, Sleepers.answer?,
    List.getElem?_append_right (Nat.le_of_eq hlength), hlength, Nat.sub_self]
  rfl

end TokenPool

namespace TokenOperation

open Sleepers (getElem?_naps_concat)

section Sleep

variable (timer : Timer) (ties : Nat → Bool) {before rest : List TokenOperation} {token : Nat}
  {span : Span}

/-! ### How a sleep goes on -/

theorem clock_sleep (before rest : List TokenOperation) (token : Nat) (span : Span) :
    clock (before ++ sleep token span :: rest) = clock before + clock rest := by
  rw [clock_append]
  simp [clock, millis]

/-- What comes behind the beginning of a sleep is taken apart. -/
theorem sleep_append (before : List TokenOperation) (token : Nat) (span : Span)
    (mid more : List TokenOperation) : before ++ sleep token span :: (mid ++ more) =
      (before ++ sleep token span :: mid) ++ more := by
  rw [List.append_assoc, List.cons_append]

/-- If a token is cancelled after a sleep on it has begun, it was cancelled before or since. -/
theorem IsCancelled.before_or_since
    (hfits : Fits (before ++ sleep token span :: rest))
    (h : IsCancelled (before ++ sleep token span :: rest) token) :
    IsCancelled before token ∨
      ∃ other, cancel other ∈ rest ∧ Linked (before ++ sleep token span :: rest) token other := by
  obtain ⟨other, hcancel, hlinked⟩ := h
  rcases List.mem_append.mp hcancel with hbefore | hsince
  · have hother := hfits.of_append.lt_tokens_of_mem hbefore rfl
    exact .inl ⟨other, hbefore, hlinked.of_append hfits (hfits.lt_tokens rfl) hother⟩
  · have hrest : cancel other ∈ rest := by simpa using hsince
    exact .inr ⟨other, hrest, hlinked⟩

/-- Among the cancellations of some kind there is a first one. -/
theorem exists_first_cancel {kind : Nat → Prop} (mid : List TokenOperation) {other : Nat}
    {more : List TokenOperation} (hsplit : rest = mid ++ cancel other :: more)
    (hkind : kind other) :
    ∃ mid' other' more', rest = mid' ++ cancel other' :: more' ∧ kind other' ∧
      (∀ earlier, cancel earlier ∈ mid' → ¬ kind earlier) ∧ clock mid' ≤ clock mid := by
  by_cases hfirst : ∀ earlier, cancel earlier ∈ mid → ¬ kind earlier
  · exact ⟨mid, other, more, hsplit, hkind, hfirst, Nat.le_refl _⟩
  · simp only [not_forall, not_not] at hfirst
    obtain ⟨earlier, hcancel, hearlier⟩ := hfirst
    obtain ⟨sooner, since, rfl⟩ := List.append_of_mem hcancel
    rw [List.append_assoc, List.cons_append] at hsplit
    obtain ⟨mid', other', more', hsplit', hkind', hfirst', hle⟩ :=
      exists_first_cancel sooner hsplit hearlier
    refine ⟨mid', other', more', hsplit', hkind', hfirst', Nat.le_trans hle ?_⟩
    rw [clock_append]
    exact Nat.le_add_right _ _
termination_by mid.length

/-- What is answered by a sleep that is known. -/
theorem answer?_of_nap {n : Nap}
    (h : (Sleepers.after timer ties (before ++ sleep token span :: rest)).naps[begun before]? =
      some n) :
    (Sleepers.after timer ties (before ++ sleep token span :: rest)).answer? (begun before) =
      n.answer? (TokenPool.after timer (before ++ sleep token span :: rest)) := by
  rw [Sleepers.answer?, h, Sleepers.pool_after]
  rfl

/-- On a token that was cancelled a sleep is over at once. -/
theorem over_at_once (hfits : Fits (before ++ sleep token span :: rest))
    (h : IsCancelled before token) :
    (Sleepers.after timer ties (before ++ sleep token span :: rest)).answer? (begun before) =
      some (false, clock before) := by
  have hcancelled := (isCancelled_iff timer hfits.of_append (hfits.lt_tokens rfl)).mpr h
  have hfirst := Sleepers.getElem?_naps_sleep timer ties before token span
  rw [Nap.begin_of_cancelled hcancelled, Nap.look_of_ended, TokenPool.now_after] at hfirst
  have hlater := Sleepers.getElem?_naps_append hfirst rest
  rw [List.append_assoc, List.singleton_append] at hlater
  exact answer?_of_nap timer ties hlater

/-- Without a span it is over at once as well. -/
theorem over_when_empty (hfits : Fits (before ++ sleep token span :: rest))
    (hgoes : ¬ IsCancelled before token) (hempty : span.isZero = true) :
    (Sleepers.after timer ties (before ++ sleep token span :: rest)).answer? (begun before) =
      some (true, clock before) := by
  have hflag := (isCancelled_eq_false_iff timer hfits.of_append (hfits.lt_tokens rfl)).mpr hgoes
  have hfirst := Sleepers.getElem?_naps_sleep timer ties before token span
  rw [Nap.begin_of_empty hflag hempty, Nap.look_of_ended, TokenPool.now_after] at hfirst
  have hlater := Sleepers.getElem?_naps_append hfirst rest
  rw [List.append_assoc, List.singleton_append] at hlater
  exact answer?_of_nap timer ties hlater

/-- As long as its time has not passed and no token that is linked to its own is cancelled, it is
not certain how a sleep ends. -/
theorem pending (hfits : Fits (before ++ sleep token span :: rest))
    (hgoes : ¬ IsCancelled before token) (hlong : span.isZero = false)
    (hquiet : ∀ other, cancel other ∈ rest →
      ¬ Linked (before ++ sleep token span :: rest) token other)
    (hearly : clock rest ≤ timer.wait span) :
    (Sleepers.after timer ties (before ++ sleep token span :: rest)).naps[begun before]? =
      some ⟨token, clock before + timer.wait span, ties (begun before), none⟩ := by
  have htoken : token < tokens before := hfits.lt_tokens rfl
  induction rest using List.reverseRecOn with
  | nil =>
    have hflag := (isCancelled_eq_false_iff timer hfits.of_append htoken).mpr hgoes
    have hwake : (TokenPool.after timer before).now ≤
        (TokenPool.after timer before).now + timer.wait span :=
      Nat.le_add_right _ _
    rw [Sleepers.getElem?_naps_sleep, Nap.begin_of_lasting hflag hlong, TokenPool.timer_after,
      Nap.look_of_asleep hwake hflag, TokenPool.now_after]
  | append_singleton rest op ih =>
    have hnow : (TokenPool.after timer (before ++ sleep token span :: (rest ++ [op]))).now ≤
        clock before + timer.wait span := by
      rw [TokenPool.now_after, clock_sleep]
      omega
    have hflag : (TokenPool.after timer
        (before ++ sleep token span :: (rest ++ [op]))).isCancelled token = false := by
      have hlater : token < tokens (before ++ sleep token span :: (rest ++ [op])) :=
        lt_tokens_append htoken _
      refine (isCancelled_eq_false_iff timer hfits hlater).mpr fun hcancelled => ?_
      rcases hcancelled.before_or_since hfits with h | ⟨other, hcancel, hlinked⟩
      · exact hgoes h
      · exact hquiet other hcancel hlinked
    rw [sleep_append] at hfits hquiet hnow hflag ⊢
    have hbefore := ih hfits.of_append
      (fun other hcancel hlinked =>
        hquiet other (List.mem_append_left [op] hcancel) (hlinked.append [op]))
      (by
        rw [clock_append] at hearly
        omega)
    rw [getElem?_naps_concat hbefore, Nap.look_of_asleep hnow hflag]

/-- If no token that is linked to its own is cancelled until its time has passed, it is certain by
then that its whole span went by. -/
theorem over_when_passed (hfits : Fits (before ++ sleep token span :: rest))
    (hgoes : ¬ IsCancelled before token) (hlong : span.isZero = false)
    (hlate : ∀ mid other more, rest = mid ++ cancel other :: more →
      Linked (before ++ sleep token span :: rest) token other → timer.wait span < clock mid)
    (hpassed : timer.wait span < clock rest) :
    (Sleepers.after timer ties (before ++ sleep token span :: rest)).naps[begun before]? =
      some ⟨token, clock before + timer.wait span, ties (begun before),
        some (true, clock before + timer.wait span)⟩ := by
  induction rest using List.reverseRecOn with
  | nil => exact absurd hpassed (Nat.not_lt_zero _)
  | append_singleton rest op ih =>
    rw [sleep_append] at hfits hlate ⊢
    have hlate' : ∀ mid other more, rest = mid ++ cancel other :: more →
        Linked (before ++ sleep token span :: rest) token other → timer.wait span < clock mid := by
      rintro mid other more rfl hlinked
      exact hlate mid other (more ++ [op]) (by simp) (hlinked.append [op])
    by_cases hover : timer.wait span < clock rest
    · exact Sleepers.getElem?_naps_append (ih hfits.of_append hlate' hover) [op]
    · -- The time passes with this operation, so nothing has been cancelled before.
      have hearly : clock rest ≤ timer.wait span := Nat.le_of_not_lt hover
      have hquiet : ∀ other, cancel other ∈ rest →
          ¬ Linked (before ++ sleep token span :: rest) token other := by
        intro other hcancel hlinked
        obtain ⟨mid, more, rfl⟩ := List.append_of_mem hcancel
        have hmid := hlate' mid other more rfl hlinked
        rw [clock_append] at hearly
        omega
      have hasleep := pending timer ties hfits.of_append hgoes hlong hquiet hearly
      have hnow : clock before + timer.wait span <
          (TokenPool.after timer ((before ++ sleep token span :: rest) ++ [op])).now := by
        rw [TokenPool.now_after, clock_append, clock_sleep]
        rw [clock_append] at hpassed
        omega
      rw [getElem?_naps_concat hasleep, Nap.look_of_over hnow]

/-- When a token that is linked to its own is cancelled first, and its time has not passed, a sleep
is over. -/
theorem over_when_cut {mid more : List TokenOperation} {other : Nat}
    (hfits : Fits (before ++ sleep token span :: (mid ++ cancel other :: more)))
    (hgoes : ¬ IsCancelled before token) (hlong : span.isZero = false)
    (hlinked : Linked (before ++ sleep token span :: (mid ++ cancel other :: more)) token other)
    (hfirst : ∀ earlier, cancel earlier ∈ mid →
      ¬ Linked (before ++ sleep token span :: (mid ++ cancel other :: more)) token earlier)
    (hearly : clock mid ≤ timer.wait span) :
    (Sleepers.after timer ties
        (before ++ sleep token span :: (mid ++ cancel other :: more))).answer? (begun before) =
      some (Sleep.isFull true (ties (begun before)) (timer.wait span) (clock mid),
        clock before + clock mid) := by
  rw [sleep_append] at hfits hlinked hfirst
  have htoken : token < tokens before := hfits.of_append.lt_tokens rfl
  have hother : other < tokens (before ++ sleep token span :: mid) := hfits.lt_tokens rfl
  have hasleep := pending timer ties hfits.of_append hgoes hlong
    (fun earlier hcancel h => hfirst earlier hcancel (h.append _)) hearly
  -- The cancellation comes before the time of the sleep has passed, and it reaches the token.
  have hsplit : (before ++ sleep token span :: mid) ++ cancel other :: more =
      ((before ++ sleep token span :: mid) ++ [cancel other]) ++ more := by simp
  have hnow : (TokenPool.after timer
      ((before ++ sleep token span :: mid) ++ [cancel other])).now = clock before + clock mid := by
    rw [TokenPool.now_after, clock_append, clock_sleep]
    rfl
  rw [hsplit] at hfits hlinked
  have hlater : token < tokens ((before ++ sleep token span :: mid) ++ [cancel other]) := by
    rw [List.append_assoc]
    exact lt_tokens_append htoken _
  have hflag : (TokenPool.after timer
      ((before ++ sleep token span :: mid) ++ [cancel other])).isCancelled token = true := by
    rw [isCancelled_iff timer hfits.of_append hlater]
    exact ⟨other, by simp, hlinked.of_append hfits hlater (lt_tokens_append hother _)⟩
  have hfull : Sleep.isFull true (ties (begun before)) (clock before + timer.wait span)
      (clock before + clock mid) =
        Sleep.isFull true (ties (begun before)) (timer.wait span) (clock mid) := by
    simp [Sleep.isFull]
  have hcut : (Sleepers.after timer ties
      ((before ++ sleep token span :: mid) ++ [cancel other])).naps[begun before]? =
        some ⟨token, clock before + timer.wait span, ties (begun before),
          some (Sleep.isFull true (ties (begun before)) (timer.wait span) (clock mid),
            clock before + clock mid)⟩ := by
    rw [getElem?_naps_concat hasleep, Nap.look_of_cancelled (by omega) hflag, hnow, hfull]
  have hover := Sleepers.getElem?_naps_append hcut more
  rw [← hsplit, ← sleep_append] at hover
  exact answer?_of_nap timer ties hover

/-- A sleep that is not cancelled before its time answers at that time: that its whole span went
by, unless it is cancelled just then and the tie falls to the cancellation. -/
theorem over_in_time (hfits : Fits (before ++ sleep token span :: rest))
    (hgoes : ¬ IsCancelled before token)
    (hlate : ∀ mid other more, rest = mid ++ cancel other :: more →
      Linked (before ++ sleep token span :: rest) token other → timer.wait span ≤ clock mid)
    (hdue : timer.wait span ≤ clock rest) :
    ∃ full, (Sleepers.after timer ties (before ++ sleep token span :: rest)).answer?
          (begun before) = some (full, clock before + timer.wait span) ∧
      (full = true ∨ full = ties (begun before) ∧ span.isZero = false ∧
        ∃ mid other more, rest = mid ++ cancel other :: more ∧
          Linked (before ++ sleep token span :: rest) token other ∧
          clock mid = timer.wait span) := by
  cases hlong : span.isZero with
  | true =>
    have hempty := (timer.wait_eq_zero_iff span).mpr hlong
    exact ⟨true, by rw [over_when_empty timer ties hfits hgoes hlong, hempty]; rfl, .inl rfl⟩
  | false =>
    by_cases htied : ∃ mid other more, rest = mid ++ cancel other :: more ∧
        Linked (before ++ sleep token span :: rest) token other ∧ clock mid ≤ timer.wait span
    · -- The first cancellation comes just in time.
      obtain ⟨_, _, _, hsplit, hlinked, hle⟩ := htied
      obtain ⟨mid, other, more, rfl, hlinked, hfirst, hsooner⟩ :=
        exists_first_cancel _ hsplit hlinked
      have hclock : clock mid = timer.wait span :=
        Nat.le_antisymm (Nat.le_trans hsooner hle) (hlate mid other more rfl hlinked)
      refine ⟨ties (begun before), ?_, .inr ⟨rfl, rfl, mid, other, more, rfl, hlinked, hclock⟩⟩
      rw [over_when_cut timer ties hfits hgoes hlong hlinked hfirst (Nat.le_of_eq hclock), hclock,
        Sleep.isFull_of_due (Nat.le_refl _)]
    · have hnone : ∀ mid other more, rest = mid ++ cancel other :: more →
          Linked (before ++ sleep token span :: rest) token other → timer.wait span < clock mid :=
        fun mid other more hsplit hlinked =>
          Nat.lt_of_not_le fun hle => htied ⟨mid, other, more, hsplit, hlinked, hle⟩
      refine ⟨true, ?_, .inl rfl⟩
      rcases Nat.lt_or_eq_of_le hdue with hpassed | hjust
      · have hover := over_when_passed timer ties hfits hgoes hlong hnone hpassed
        exact answer?_of_nap timer ties hover
      · -- Its time has just come, and nothing has been cancelled.
        have hquiet : ∀ other, cancel other ∈ rest →
            ¬ Linked (before ++ sleep token span :: rest) token other := by
          intro other hcancel hlinked
          obtain ⟨mid, more, rfl⟩ := List.append_of_mem hcancel
          have hmid := hnone mid other more rfl hlinked
          rw [clock_append] at hjust
          omega
        have hasleep := pending timer ties hfits hgoes hlong hquiet (Nat.le_of_eq hjust.symm)
        rw [answer?_of_nap timer ties hasleep, Nap.answer?_of_due]
        rw [TokenPool.now_after, clock_sleep]
        omega

end Sleep

/-- What a sleep answers, and when, if milliseconds are rounded up. It began behind some operations,
and others came since. -/
structure Answers (tie : Bool) (before : List TokenOperation) (token : Nat) (span : Span)
    (rest : List TokenOperation) (answer : Option (Bool × Nat)) : Prop where
  /-- On a token that was cancelled it is over at once. -/
  atOnce : IsCancelled before token → answer = some (false, clock before)
  /-- Otherwise one of no length is over at once. -/
  empty : ¬ IsCancelled before token → span.isZero = true → answer = some (true, clock before)
  /-- It lasts for its whole span if no token that is linked to its own is cancelled before that is
  over, and none just then unless the tie falls to the sleep. -/
  inFull : ¬ IsCancelled before token →
    (∀ mid other more, rest = mid ++ cancel other :: more →
      Linked (before ++ sleep token span :: rest) token other →
      span.ticks < clock mid ∨ span.ticks = clock mid ∧ tie = true) →
    span.ticks ≤ clock rest → answer = some (true, clock before + span.ticks)
  /-- However the tie falls, it is over when its span is, if it is not cancelled before. -/
  inTime : ¬ IsCancelled before token →
    (∀ mid other more, rest = mid ++ cancel other :: more →
      Linked (before ++ sleep token span :: rest) token other → span.ticks ≤ clock mid) →
    span.ticks ≤ clock rest → ∃ full, answer = some (full, clock before + span.ticks)
  /-- When such a token is cancelled first within that, it is over then. -/
  cut : ¬ IsCancelled before token → ∀ mid other more, rest = mid ++ cancel other :: more →
    Linked (before ++ sleep token span :: rest) token other →
    (∀ earlier, cancel earlier ∈ mid →
      ¬ Linked (before ++ sleep token span :: rest) token earlier) →
    clock mid < span.ticks → answer = some (false, clock before + clock mid)
  /-- Until then it does not answer. -/
  asleep : ¬ IsCancelled before token →
    (∀ other, cancel other ∈ rest →
      ¬ Linked (before ++ sleep token span :: rest) token other) →
    clock rest < span.ticks → answer = none

/-- What the next sleep or wait answers in a longer history, and the pool after that. -/
def Continues (timer : Timer) (ties : Nat → Bool) (ops more : List TokenOperation)
    (answer : Bool × Nat) (p : TokenPool) : Prop :=
  (Sleepers.after timer ties (ops ++ more)).answer? (begun ops) = some answer ∧
    TokenPool.after timer (ops ++ more) = p

/-- A pool that lets a sleep or a wait go by does what becomes of it in the history that goes on
with it. -/
structure LetsGoBy (timer : Timer) (ties : Nat → Bool) (ops : List TokenOperation)
    (p : TokenPool) : Prop where
  sleeps : ∀ token span, let result := p.sleep token span
    Continues timer ties ops [sleep token span, pass (result.2.now - p.now)]
      (result.1, result.2.now) result.2
  /-- A wait answers whether the token is cancelled, which is when its span does not go by. -/
  waits : ∀ token span, let result := p.await token span
    Continues timer ties ops [await token span, pass (result.2.now - p.now)]
      (!result.1, result.2.now) result.2
  sleepsWhileCancelling : ∀ token span delay other,
    let result := p.sleepWhileCancelling token span delay other (ties (begun ops))
    Continues timer ties ops [sleep token span, pass (timer.wait delay), cancel other,
        pass (result.2.2.now - (p.now + timer.wait delay))]
      (result.1, result.2.1) result.2.2

/-- The pool after some operations lets sleeps and waits go by in the history that goes on. -/
theorem letsGoBy_after (timer : Timer) (ties : Nat → Bool) (ops : List TokenOperation) :
    LetsGoBy timer ties ops (TokenPool.after timer ops) := by
  have hcontinues {more : List TokenOperation} {answer : Bool × Nat} {p : TokenPool}
      (h : (TokenPool.after timer ops).follow (fun number => ties (begun ops + number)) more =
        (some answer, p)) : Continues timer ties ops more answer p := by
    rwa [TokenPool.follow_after, Prod.mk.injEq] at h
  constructor
  · intro token span result
    exact hcontinues (TokenPool.sleep_eq _ _ token span)
  · intro token span result
    exact hcontinues (TokenPool.await_eq _ _ token span)
  · intro token span delay other result
    have h := TokenPool.sleepWhileCancelling_eq (fun number => ties (begun ops + number))
      (TokenPool.after timer ops) token span delay other
    rw [TokenPool.timer_after] at h
    exact hcontinues h

/-- In every history of stop tokens a token is cancelled exactly if one that is linked to it by
clonings was, whatever was done with the others, and it stays cancelled. If milliseconds are rounded
up, a sleep answers at once on a cancelled token, also one of no length; when it is cut short; and
else when its span is over, however a cancellation at that very time is taken. Whatever a pool lets
go by is a history of this kind. -/
theorem flags_and_sleeps {timer : Timer} (hexact : timer.IsExact) (ties : Nat → Bool)
    {ops : List TokenOperation} (hfits : Fits ops) :
    (∀ token < tokens ops,
      (Sleepers.after timer ties ops).pool.isCancelled token = true ↔ IsCancelled ops token) ∧
    (∀ more, Fits (ops ++ more) → ∀ token < tokens ops,
      (Sleepers.after timer ties ops).pool.isCancelled token = true →
        (Sleepers.after timer ties (ops ++ more)).pool.isCancelled token = true) ∧
    (∀ before token span rest, ops = before ++ sleep token span :: rest →
      Answers (ties (begun before)) before token span rest
        ((Sleepers.after timer ties ops).answer? (begun before))) ∧
    LetsGoBy timer ties ops (Sleepers.after timer ties ops).pool := by
  simp only [Sleepers.pool_after]
  refine ⟨fun token htoken => isCancelled_iff timer hfits htoken, ?_, ?_,
    letsGoBy_after timer ties ops⟩
  · intro more hmore token htoken hcancelled
    rw [isCancelled_iff timer hfits htoken] at hcancelled
    rw [isCancelled_iff timer hmore (lt_tokens_append htoken more)]
    exact hcancelled.append more
  · rintro before token span rest rfl
    have hlong {time : Nat} (h : time < span.ticks) : span.isZero = false := by
      rw [← Bool.not_eq_true, ← Span.ticks_eq_zero_iff]
      omega
    exact {
      atOnce := fun hcancelled => over_at_once timer ties hfits hcancelled
      empty := fun hgoes hempty => over_when_empty timer ties hfits hgoes hempty
      inFull := by
        intro hgoes hlate hdue
        obtain ⟨full, hanswer, hfull⟩ := over_in_time timer ties hfits hgoes
          (fun mid other more hsplit hlinked => by
            rw [hexact]
            rcases hlate mid other more hsplit hlinked with h | ⟨h, -⟩ <;> omega)
          (by rwa [hexact])
        rw [hanswer, hexact]
        rcases hfull with rfl | ⟨htie, -, mid, other, more, hsplit, hlinked, hclock⟩
        · rfl
        · rw [hexact] at hclock
          rcases hlate mid other more hsplit hlinked with h | ⟨-, h⟩
          · omega
          · rw [htie, h]
      inTime := by
        intro hgoes hlate hdue
        rw [← hexact] at hdue ⊢
        obtain ⟨full, hanswer, -⟩ := over_in_time timer ties hfits hgoes
          (fun mid other more hsplit hlinked => by
            rw [hexact]
            exact hlate mid other more hsplit hlinked)
          hdue
        exact ⟨full, hanswer⟩
      cut := by
        rintro hgoes mid other more rfl hlinked hfirst hearly
        have hnot := hlong hearly
        rw [← hexact] at hearly
        rw [over_when_cut timer ties hfits hgoes hnot hlinked hfirst (Nat.le_of_lt hearly),
          Sleep.isFull_of_early hearly]
      asleep := by
        intro hgoes hquiet hearly
        have hnot := hlong hearly
        rw [← hexact] at hearly
        have hpending := pending timer ties hfits hgoes hnot hquiet (Nat.le_of_lt hearly)
        rw [answer?_of_nap timer ties hpending, Nap.answer?_of_asleep]
        rw [TokenPool.now_after, clock_sleep]
        omega }

/-- A clone of a clone of the first token and a token of its own are slept on. When the first token
is cancelled one sleep is over, and the other one lasts for its span. -/
theorem flags_and_sleeps_clones :
    let ops := [clone 0, new, clone 1, sleep 3 (.ofMillis 100), sleep 2 ⟨69000001⟩, pass 30,
      cancel 0, pass 50, sleep 1 .zero]
    let answer? := (Sleepers.after .exact (fun _ => false) ops).answer?
    Fits ops ∧ IsCancelled ops 3 ∧ ¬ IsCancelled ops 2 ∧
      answer? 0 = some (false, 30) ∧ answer? 1 = some (true, 70) ∧
      answer? 2 = some (false, 80) := by
  intro ops answer?
  have hfits : Fits ops := by decide
  obtain ⟨hflags, -, hsleeps, -⟩ := flags_and_sleeps Timer.isExact_exact (fun _ => false) hfits
  have hcloned : IsCancelled ops 3 := (hflags 3 (by decide)).mp (by decide)
  have hown : ¬ IsCancelled ops 2 := (hflags 2 (by decide)).not.mp (by decide)
  have hquiet : ∀ token, ¬ IsCancelled [clone 0, new, clone 1] token ∧
      ¬ IsCancelled [clone 0, new, clone 1, sleep 3 (.ofMillis 100)] token := by
    intro token
    constructor <;> rintro ⟨other, hcancel, -⟩ <;> simp at hcancel
  have hlinked : Linked ops 3 0 :=
    .trans 3 1 0 (.rel 3 1 ⟨[clone 0, new], _, rfl, rfl⟩) (.rel 1 0 ⟨[], _, rfl, rfl⟩)
  have hfirst := (hsleeps [clone 0, new, clone 1] 3 _ _ rfl).cut (hquiet 3).1
    [sleep 2 ⟨69000001⟩, pass 30] 0 _ rfl hlinked (by simp) (by decide)
  have hsecond : answer? 1 =
      some (true, clock [clone 0, new, clone 1, sleep 3 (.ofMillis 100)] +
        Span.ticks ⟨69000001⟩) := by
    refine (hsleeps [clone 0, new, clone 1, sleep 3 _] 2 _ _ rfl).inFull (hquiet 2).2 ?_ (by decide)
    intro mid other more hsplit hother
    have hsince : cancel other ∈ [pass 30, cancel 0, pass 50, sleep 1 .zero] := by
      rw [hsplit]
      simp
    have hcancel : cancel other ∈ ops :=
      List.mem_append_right [clone 0, new, clone 1, sleep 3 _, sleep 2 _] hsince
    exact absurd ⟨other, hcancel, hother⟩ hown
  have hthird := (hsleeps [clone 0, new, clone 1, sleep 3 _, sleep 2 _, pass 30, cancel 0, pass 50]
    1 _ _ rfl).atOnce ⟨0, by simp, .rel 1 0 ⟨[], _, rfl, rfl⟩⟩
  exact ⟨hfits, hcloned, hown, hfirst, hsecond.trans (by decide), hthird⟩

end TokenOperation

end InputScript
