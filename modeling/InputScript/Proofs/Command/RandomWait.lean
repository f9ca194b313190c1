import InputScript.Command.Prepare
import InputScript.Engine.Worker
import Mathlib.Data.Nat.Basic
import Mathlib.Order.Basic

/-!
# `InputScript.Proofs.Command.RandomWait`: the spans that a random pause takes

A pause between two bounds is drawn in whole milliseconds, and a bound that is no whole number of
them is cut off. That does no harm to the upper bound, but the pause may be shorter than the lower
bound, by less than a millisecond. A number of milliseconds of more than 64 bits wraps around as
well, and then the pause may be as short as none at all.

What a program may pause for is `Program.Pauses`, over all numbers that it may draw. The worker that
runs the program keeps to it (`Program.pauses_of_run`).

* `Command.pauses_wait_iff`: the spans that a pause between two bounds may take.
* `Command.within_of_pauses`, `Command.pausesWithin_iff`: how far they keep to the bounds.
* `Builtin.drawn_waits`: the same of the command as a script has it.
-/

set_option autoImplicit false

namespace InputScript

open Number

namespace Program

/-- Whether a program pauses for a span in some course that it may take: with some numbers drawn,
some pauses cut short, and the run being stopped or not. -/
inductive Pauses : Program → Span → Prop where
  | pause (span : Span) (next : Bool → Program) : Pauses (.pause span next) span
  | afterPause {next : Bool → Program} {span : Span} (before : Span) (full : Bool)
      (h : Pauses (next full) span) : Pauses (.pause before next) span
  | call {next : Program} {span : Span} (effect : Effect) (failed : String → Program)
      (h : Pauses next span) : Pauses (.call effect next failed) span
  | afterFailure {failed : String → Program} {span : Span} (effect : Effect) (next : Program)
      (cause : String) (h : Pauses (failed cause) span) : Pauses (.call effect next failed) span
  | stopping {next : Bool → Program} {span : Span} (cancelled : Bool)
      (h : Pauses (next cancelled) span) : Pauses (.stopping next) span
  | jump {next : Program} {span : Span} (line : Nat) (h : Pauses next span) :
      Pauses (.jump line next) span
  | stop {next : Program} {span : Span} (h : Pauses next span) : Pauses (.stop next) span
  | choose {next : Nat → Program} {span : Span} {low high n : Nat} (hlow : low ≤ n)
      (hhigh : n ≤ high) (h : Pauses (next n) span) : Pauses (.choose low high next) span

/-- Whether there is a number in every range from which a program draws. -/
def DrawsWell : Program → Prop
  | .done | .fail _ | .crash => True
  | .jump _ next | .stop next => DrawsWell next
  | .call _ next failed => DrawsWell next ∧ ∀ cause, DrawsWell (failed cause)
  | .pause _ next | .stopping next => ∀ b, DrawsWell (next b)
  | .choose low high next => low ≤ high ∧ ∀ n, DrawsWell (next n)

/-- A program falls asleep for a span that it may pause for, and what it may pause for afterwards it
might have paused for from the start. -/
theorem pauses_of_run {env : Surroundings} {p : Program} (hdraws : p.DrawsWell) {s : Stage}
    {wake : Nat} {rest : Bool → Program} (h : (p.run env s).2 = .asleep wake rest) :
    (∃ span, p.Pauses span ∧ wake = s.now + env.timer.wait span) ∧
      ∀ full span, (rest full).Pauses span → p.Pauses span := by
  induction p generalizing s with
  | done | fail | crash => cases h
  | call effect next failed ih ihFailed =>
    rw [run] at h
    split at h
    · obtain ⟨⟨span, hspan, hwake⟩, hrest⟩ := ih hdraws.1 h
      rw [Stage.now_call] at hwake
      exact ⟨⟨span, .call effect failed hspan, hwake⟩,
        fun full span hlater => .call effect failed (hrest full span hlater)⟩
    · obtain ⟨⟨span, hspan, hwake⟩, hrest⟩ := ihFailed _ (hdraws.2 _) h
      rw [Stage.now_call] at hwake
      exact ⟨⟨span, .afterFailure effect next _ hspan, hwake⟩,
        fun full span hlater => .afterFailure effect next _ (hrest full span hlater)⟩
    · cases h
  | pause span next ih =>
    rw [run] at h
    have hsleep := Sleep.begins env.timer s.cancelled span s.now
    generalize Sleep.begin env.timer s.cancelled span s.now = sleep at hsleep h
    cases hsleep with
    | cut | skipped =>
      obtain ⟨⟨span', hspan', hwake⟩, hrest⟩ := ih _ (hdraws _) h
      exact ⟨⟨span', .afterPause span _ hspan', hwake⟩,
        fun full span' hlater => .afterPause span _ (hrest full span' hlater)⟩
    | lasts =>
      cases h
      exact ⟨⟨span, .pause span _, rfl⟩, fun full span' hlater => .afterPause span full hlater⟩
  | stopping next ih =>
    obtain ⟨⟨span, hspan, hwake⟩, hrest⟩ := ih _ (hdraws _) h
    exact ⟨⟨span, .stopping _ hspan, hwake⟩,
      fun full span hlater => .stopping _ (hrest full span hlater)⟩
  | jump line next ih =>
    obtain ⟨⟨span, hspan, hwake⟩, hrest⟩ := ih hdraws h
    exact ⟨⟨span, .jump line hspan, hwake⟩,
      fun full span hlater => .jump line (hrest full span hlater)⟩
  | stop next ih =>
    obtain ⟨⟨span, hspan, hwake⟩, hrest⟩ := ih hdraws h
    exact ⟨⟨span, .stop hspan, hwake⟩, fun full span hlater => .stop (hrest full span hlater)⟩
  | choose low high next ih =>
    obtain ⟨⟨span, hspan, hwake⟩, hrest⟩ := ih _ (hdraws.2 _) h
    have hdraw : low + env.chance s.draws % (high - low + 1) ≤ high := by
      have hrange : env.chance s.draws % (high - low + 1) < high - low + 1 :=
        Nat.mod_lt _ (Nat.succ_pos _)
      have hlow := hdraws.1
      omega
    exact ⟨⟨span, .choose (Nat.le_add_right low _) hdraw hspan, hwake⟩,
      fun full span hlater => .choose (Nat.le_add_right low _) hdraw (hrest full span hlater)⟩

/-- A program that only rests does so for its span. -/
theorem pauses_rest_iff {span span' : Span} : (rest span .done).Pauses span' ↔ span' = span := by
  constructor
  · intro h
    cases h with
    | pause => rfl
    | afterPause _ _ h => cases h
  · rintro rfl
    exact .pause _ _

end Program

open Program (Pauses)

/-! ### Whole milliseconds -/

namespace Span

theorem nanos_ofMillis (n : Nat) : (ofMillis n).nanos = n * 1000000 :=
  rfl

/-- The whole milliseconds of a span are less than one short of it. -/
theorem millis_mul_le (s : Span) :
    s.millis * 1000000 ≤ s.nanos ∧ s.nanos < s.millis * 1000000 + 1000000 := by
  rw [millis]
  omega

theorem millis_le_millis {s t : Span} (h : s.nanos ≤ t.nanos) : s.millis ≤ t.millis :=
  Nat.div_le_div_right h

theorem parse_of_toOption {raw : String} {span : Span} (h : (parse raw).toOption = some span) :
    parse raw = .ok span := by
  cases hread : parse raw with
  | error => simp [hread, Except.toOption] at h
  | ok => simpa [hread, Except.toOption] using h

theorem ext_nanos {s t : Span} (h : s.nanos = t.nanos) : s = t := by
  cases s
  cases t
  exact congrArg mk h

end Span

namespace Command

variable {min max : Span}

/-- The spans that a pause between two bounds may take. -/
theorem pauses_wait_iff {span : Span} : (wait min max).program.Pauses span ↔
    if max.nanos ≤ min.nanos then span = min
    else ∃ ms, min.millis ≤ ms ∧ ms ≤ max.millis ∧ span = .ofMillis (ms % bound64) := by
  rw [program, pauseBetween]
  split
  · exact Program.pauses_rest_iff
  · constructor
    · intro h
      cases h with
      | choose hlow hhigh h => exact ⟨_, hlow, hhigh, Program.pauses_rest_iff.mp h⟩
    · rintro ⟨ms, hlow, hhigh, rfl⟩
      exact .choose hlow hhigh (Program.pauses_rest_iff.mpr rfl)

/-- A random pause keeps to the upper bound. Without a number of more than 64 bits it is less than
one millisecond shorter than the lower bound. -/
theorem within_of_pauses (hle : min.nanos ≤ max.nanos) {span : Span}
    (h : (wait min max).program.Pauses span) :
    span.nanos ≤ max.nanos ∧ (max.millis < bound64 → min.nanos < span.nanos + 1000000) := by
  rw [pauses_wait_iff] at h
  have hmin := min.millis_mul_le
  have hmax := max.millis_mul_le
  split at h
  · subst h
    exact ⟨hle, fun _ => by omega⟩
  · obtain ⟨ms, hlow, hhigh, rfl⟩ := h
    rw [Span.nanos_ofMillis]
    have hcut : ms % bound64 ≤ ms := Nat.mod_le ms bound64
    refine ⟨by omega, ?_⟩
    intro hbound
    rw [Nat.mod_eq_of_lt (hhigh.trans_lt hbound)]
    omega

/-- A random pause keeps to both bounds, whatever is drawn, only if there is nothing to draw, if the
lower bound is nothing, or if that is a whole number of milliseconds and no number wraps around. -/
theorem pausesWithin_iff (hle : min.nanos ≤ max.nanos) :
    (∀ span, (wait min max).program.Pauses span →
      min.nanos ≤ span.nanos ∧ span.nanos ≤ max.nanos) ↔
      min = max ∨ min = .zero ∨ (1000000 ∣ min.nanos ∧ max.millis < bound64) := by
  have hmin := min.millis_mul_le
  have hmillis : min.millis ≤ max.millis := Span.millis_le_millis hle
  constructor
  · intro h
    by_contra hnot
    simp only [not_or, not_and, Nat.not_lt] at hnot
    obtain ⟨hne, hzero, hwrap⟩ := hnot
    have hchoice : ¬ max.nanos ≤ min.nanos := fun hge => hne (Span.ext_nanos (hle.antisymm hge))
    have hpositive : 0 < min.nanos := Nat.pos_of_ne_zero fun h0 => hzero (Span.ext_nanos h0)
    have hdraw (ms : Nat) (hlow : min.millis ≤ ms) (hhigh : ms ≤ max.millis) :
        min.nanos ≤ ms % bound64 * 1000000 := by
      have hspan := (h (.ofMillis (ms % bound64)) (by
        rw [pauses_wait_iff, if_neg hchoice]
        exact ⟨ms, hlow, hhigh, rfl⟩)).1
      rwa [Span.nanos_ofMillis] at hspan
    -- The lowest number shows that the lower bound is one of whole milliseconds.
    have hlowest := hdraw min.millis le_rfl hmillis
    have hcut : min.millis % bound64 ≤ min.millis := Nat.mod_le _ _
    have hexact : min.nanos = min.millis * 1000000 := by omega
    have hsmall : min.millis < bound64 := by
      have hrange := Nat.mod_lt min.millis (show 0 < bound64 by decide)
      omega
    -- And the first number that wraps around would be no pause.
    have hzero := hdraw bound64 hsmall.le (hwrap ⟨min.millis, by omega⟩)
    rw [Nat.mod_self] at hzero
    omega
  · intro h span hspan
    refine ⟨?_, (within_of_pauses hle hspan).1⟩
    rw [pauses_wait_iff] at hspan
    split at hspan
    · rw [hspan]
    · rename_i hchoice
      obtain ⟨ms, hlow, hhigh, rfl⟩ := hspan
      rw [Span.nanos_ofMillis]
      rcases h with rfl | rfl | ⟨⟨k, hk⟩, hbound⟩
      · exact absurd le_rfl hchoice
      · exact Nat.zero_le _
      · rw [Nat.mod_eq_of_lt (hhigh.trans_lt hbound)]
        omega

/-- A pause between bounds in order draws from a range that is not empty. -/
theorem drawsWell_wait (hle : min.nanos ≤ max.nanos) : (wait min max).program.DrawsWell := by
  rw [program, pauseBetween]
  split
  · exact fun _ => trivial
  · exact ⟨Span.millis_le_millis hle, fun _ _ => trivial⟩

end Command

namespace Scope

theorem span_ok_iff {raw : String} {span : Span} :
    Scope.span raw = .ok span ↔ Span.parse raw = .ok span := by
  -- Its equation would take the reader of spans apart.
  delta Scope.span
  cases Span.parse raw <;> simp

/-- A second span that is not written is the first one. -/
theorem spanD_ok_iff {scope : Scope} {index : Nat} {absent span : Span} :
    scope.spanD index absent = .ok span ↔
      (scope.param? index = none ∧ span = absent) ∨
        ∃ raw, scope.param? index = some raw ∧ Span.parse raw = .ok span := by
  rw [spanD]
  cases scope.param? index with
  | none => simp [eq_comm]
  | some raw => simp [span_ok_iff]

end Scope

namespace Builtin

/-- The pauses that are prepared: their bounds are spans, and in order. -/
theorem prepareWait_ok_iff {scope : Scope} {prepared : Prepared} :
    prepareWait scope = .ok prepared ↔ ∃ min max : Span,
      Span.parse (scope.paramD 0) = .ok min ∧ scope.spanD 1 min = .ok max ∧
        min.nanos ≤ max.nanos ∧ prepared = ⟨scope.params, .wait min max⟩ := by
  simp only [prepareWait, bind, Except.bind]
  constructor
  · intro h
    split at h
    · cases h
    · rename_i min hmin
      split at h
      · cases h
      · rename_i max hmax
        split at h
        · cases h
        · rename_i hle
          cases h
          exact ⟨min, max, Scope.span_ok_iff.mp hmin, hmax, Nat.not_lt.mp hle, rfl⟩
  · rintro ⟨min, max, hmin, hmax, hle, rfl⟩
    simp only [Scope.span_ok_iff.mpr hmin, hmax, if_neg (Nat.not_lt.mpr hle)]

/-- A pause between two bounds that are written. -/
theorem prepare_wait_two {scope : Scope} {first second : String} {min max : Span}
    (hparams : scope.params = [first, second]) (hmin : (Span.parse first).toOption = some min)
    (hmax : (Span.parse second).toOption = some max) (hle : min.nanos ≤ max.nanos) :
    Builtin.wait.prepare scope = .ok ⟨scope.params, .wait min max⟩ := by
  have hfirst : scope.paramD 0 = first := by simp [Scope.paramD, Scope.param?, hparams]
  have hsecond : scope.param? 1 = some second := by simp [Scope.param?, hparams]
  refine prepareWait_ok_iff.mpr ⟨min, max, ?_, ?_, hle, rfl⟩
  · rw [hfirst]
    exact Span.parse_of_toOption hmin
  · exact Scope.spanD_ok_iff.mpr (.inr ⟨second, hsecond, Span.parse_of_toOption hmax⟩)

/-- The pauses of a command that is prepared, over all numbers that may be drawn. Between two bounds
a whole number of milliseconds is drawn, from those of the lower to those of the upper bound, and
kept to 64 bits. The pause is never longer than the upper bound. It may be shorter than the lower
one, by less than a millisecond if no number has more than 64 bits. So it keeps to both bounds just
if there is no choice, if the lower bound is nothing, or if that is a whole number of milliseconds
and no number has more than 64 bits. Where a worker falls asleep in the command, it does so for such
a pause. -/
theorem drawn_waits {scope : Scope} {prepared : Prepared}
    (h : Builtin.wait.prepare scope = .ok prepared) : ∃ min max : Span,
      Span.parse (scope.paramD 0) = .ok min ∧
      ((scope.param? 1 = none ∧ max = min) ∨
        ∃ raw, scope.param? 1 = some raw ∧ Span.parse raw = .ok max) ∧
      min.nanos ≤ max.nanos ∧ prepared.command = .wait min max ∧
      (∀ span, prepared.command.program.Pauses span ↔
        if max.nanos ≤ min.nanos then span = min
        else ∃ ms, min.millis ≤ ms ∧ ms ≤ max.millis ∧ span = .ofMillis (ms % bound64)) ∧
      (∀ span, prepared.command.program.Pauses span → span.nanos ≤ max.nanos ∧
        (max.millis < bound64 → min.nanos < span.nanos + 1000000)) ∧
      ((∀ span, prepared.command.program.Pauses span →
        min.nanos ≤ span.nanos ∧ span.nanos ≤ max.nanos) ↔
          min = max ∨ min = .zero ∨ (1000000 ∣ min.nanos ∧ max.millis < bound64)) ∧
      ∀ (env : Surroundings) (s : Stage) (wake : Nat) (rest : Bool → Program),
        (prepared.command.program.run env s).2 = .asleep wake rest →
          ∃ span, prepared.command.program.Pauses span ∧ wake = s.now + env.timer.wait span := by
  obtain ⟨min, max, hmin, hmax, hle, rfl⟩ := prepareWait_ok_iff.mp h
  refine ⟨min, max, hmin, Scope.spanD_ok_iff.mp hmax, hle, rfl, fun _ => Command.pauses_wait_iff,
    fun _ => Command.within_of_pauses hle, Command.pausesWithin_iff hle, ?_⟩
  intro env s wake rest hasleep
  exact (Program.pauses_of_run (Command.drawsWell_wait hle) hasleep).1

/-- A pause from half a second up to one keeps to its bounds. -/
theorem drawn_waits_half_second :
    Builtin.wait.prepare ⟨1, ["500", "1000ms"], ⟨[], 1⟩⟩ =
        .ok ⟨["500", "1000ms"], .wait (.ofMillis 500) (.ofMillis 1000)⟩ ∧
      ∀ span, (Command.wait (.ofMillis 500) (.ofMillis 1000)).program.Pauses span →
        500000000 ≤ span.nanos ∧ span.nanos ≤ 1000000000 := by
  have hprepared : Builtin.wait.prepare ⟨1, ["500", "1000ms"], ⟨[], 1⟩⟩ =
      .ok ⟨["500", "1000ms"], .wait (.ofMillis 500) (.ofMillis 1000)⟩ :=
    prepare_wait_two rfl (by decide +kernel) (by decide +kernel) (by decide)
  refine ⟨hprepared, ?_⟩
  obtain ⟨min, max, -, -, -, hcommand, -, -, hwithin, -⟩ := drawn_waits hprepared
  cases hcommand
  exact hwithin.mpr (.inr (.inr ⟨by decide, by decide⟩))

/-- Bounds of a tenth and of nine tenths of a millisecond leave only the empty pause, and a lower
bound of just more than `2 ^ 64` milliseconds can give way to a pause of less than a second. -/
theorem drawn_wait_below_bound :
    (Builtin.wait.prepare ⟨1, ["0.0001s", "0.0009s"], ⟨[], 1⟩⟩ =
        .ok ⟨["0.0001s", "0.0009s"], .wait ⟨100000⟩ ⟨900000⟩⟩ ∧
      ∀ span, (Command.wait ⟨100000⟩ ⟨900000⟩).program.Pauses span ↔ span = .zero) ∧
    (Builtin.wait.prepare ⟨1, ["18446744073709552s", "18446744073709556s"], ⟨[], 1⟩⟩ =
        .ok ⟨["18446744073709552s", "18446744073709556s"],
          .wait ⟨18446744073709552000000000⟩ ⟨18446744073709556000000000⟩⟩ ∧
      (Command.wait ⟨18446744073709552000000000⟩ ⟨18446744073709556000000000⟩).program.Pauses
        (.ofMillis 384)) ∧
    ¬ ∀ (scope : Scope) (prepared : Prepared) (min max span : Span),
      Builtin.wait.prepare scope = .ok prepared → prepared.command = .wait min max →
        prepared.command.program.Pauses span → min.nanos ≤ span.nanos ∧ span.nanos ≤ max.nanos := by
  have hshort : Builtin.wait.prepare ⟨1, ["0.0001s", "0.0009s"], ⟨[], 1⟩⟩ =
      .ok ⟨["0.0001s", "0.0009s"], .wait ⟨100000⟩ ⟨900000⟩⟩ :=
    prepare_wait_two rfl (by decide +kernel) (by decide +kernel) (by decide)
  have hlong : Builtin.wait.prepare ⟨1, ["18446744073709552s", "18446744073709556s"], ⟨[], 1⟩⟩ =
      .ok ⟨["18446744073709552s", "18446744073709556s"],
        .wait ⟨18446744073709552000000000⟩ ⟨18446744073709556000000000⟩⟩ :=
    prepare_wait_two rfl (by decide +kernel) (by decide +kernel) (by decide)
  have hempty (span : Span) :
      (Command.wait ⟨100000⟩ ⟨900000⟩).program.Pauses span ↔ span = .zero := by
    rw [Command.pauses_wait_iff, if_neg (by decide)]
    constructor
    · rintro ⟨ms, -, hhigh, rfl⟩
      obtain rfl : ms = 0 := Nat.le_zero.mp hhigh
      rfl
    · rintro rfl
      exact ⟨0, Nat.zero_le _, Nat.zero_le _, rfl⟩
  refine ⟨⟨hshort, hempty⟩, ⟨hlong, ?_⟩, ?_⟩
  · rw [Command.pauses_wait_iff, if_neg (by decide)]
    exact ⟨18446744073709552000, by decide, by decide, by decide⟩
  · intro hall
    have hbound := (hall _ _ _ _ .zero hshort rfl ((hempty .zero).mpr rfl)).1
    exact absurd hbound (by decide)

end Builtin

end InputScript
