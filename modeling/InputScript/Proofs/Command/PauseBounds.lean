import InputScript.Proofs.Command.RandomWait
import InputScript.Proofs.LineMachine.BoundedInteger
import InputScript.Proofs.Span.Milliseconds

/-!
# `InputScript.Proofs.Command.PauseBounds`: a pause between two numbers of milliseconds

A random pause is given two spans, and a script with it compiles if both are spans and in order. Of
whole milliseconds nothing is lost on the way from the text to the command, so that the order of the
spans is that of the numbers, up to the last number of 64 bits.

* `Catalog.compileLine_wait`: what becomes of a pause with any two parameters.
* `Catalog.compile_wait_iff`: a script with a pause between two numbers of milliseconds.
* `milliseconds_exact`: the spellings of a number, alone and in a script.
-/

set_option autoImplicit false

namespace InputScript

open Catalog Number

/-- The spans of two numbers of milliseconds are in the order of the numbers. -/
theorem Span.nanos_ofMillis_le_iff {a b : Nat} :
    (ofMillis a).nanos ≤ (ofMillis b).nanos ↔ a ≤ b := by
  rw [nanos_ofMillis, nanos_ofMillis]
  exact Nat.mul_le_mul_right_iff (by decide)

/-! ### Numbers as parameters -/

/-- The decimal text of a number is one way to write it. -/
theorem writesNatural_toString (n : Nat) : WritesNatural n (toString n).toList := by
  rw [show (toString n).toList = Nat.toDigits 10 n from Nat.toList_repr]
  exact .plain 0

/-- A number may stand without quotes. -/
theorem Number.WritesNatural.isWord {n : Nat} {cs : List Char} (h : WritesNatural n cs) :
    IsWord cs where
  ne_nil := h.ne_nil
  plain := fun _ hc => h.noDelimiter hc

/-- A command and two numbers with a blank in front of each are one way to write the line. -/
theorem writesLine_toString {name : String} (hname : IsWord name.toList) (a b : Nat) :
    WritesLine name [toString a, toString b]
      (name ++ " " ++ toString a ++ " " ++ toString b) := by
  have hwords : ∀ p ∈ [toString a, toString b], IsWord p.toList :=
    List.forall_mem_cons.mpr ⟨(writesNatural_toString a).isWord,
      List.forall_mem_singleton.mpr (writesNatural_toString b).isWord⟩
  have hline := writesLine_words hname hwords
  have htext : String.ofList
      (name.toList ++ [toString a, toString b].flatMap fun p => ' ' :: p.toList) =
        name ++ " " ++ toString a ++ " " ++ toString b := by
    rw [String.ext_iff]
    simp
  rwa [htext] at hline

/-! ### Compiling a pause -/

namespace Catalog

/-- A pause with two parameters compiles if both are spans and the second one is no shorter. Else
the first one that is no span is refused, or the order of the two. -/
theorem compileLine_wait (first second : String) (number : Nat) (source : Source) :
    builtin.compileLine source ⟨number, Builtin.wait.name, [first, second]⟩ =
      match Span.parse first with
      | .error e => .error (.invalidParameters Builtin.wait.name number (.span e))
      | .ok min =>
        match Span.parse second with
        | .error e => .error (.invalidParameters Builtin.wait.name number (.span e))
        | .ok max =>
          if max.nanos < min.nanos then
            .error (.invalidParameters Builtin.wait.name number (.reversed max.millis min.millis))
          else .ok ⟨number, [first, second], .wait min max⟩ := by
  have hfind : builtin.find? Builtin.wait.name =
      some (descriptor .wait ⟨1, 2⟩ "Wait <ms> [max ms]") := by
    with_unfolding_all rfl
  have hspan (raw : String) : Scope.span raw =
      match Span.parse raw with
      | .error e => .error (.invalid (.span e))
      | .ok span => .ok span := by
    -- Its equation would take the reader of spans apart.
    delta Scope.span
    cases Span.parse raw <;> rfl
  have hfirst : Scope.paramD ⟨number, [first, second], source⟩ 0 = first := rfl
  have hsecond (absent : Span) :
      Scope.spanD ⟨number, [first, second], source⟩ 1 absent = Scope.span second := rfl
  rw [compileLine_builtin hfind rfl, Builtin.prepare, Builtin.prepareWait, hfirst, hspan]
  cases Span.parse first with
  | error e => rfl
  | ok min =>
    simp only [bind, Except.bind, hsecond, hspan]
    cases Span.parse second with
    | error e => rfl
    | ok max =>
      by_cases hreversed : max.nanos < min.nanos
      · simp only [if_pos hreversed]
      · simp only [if_neg hreversed]

/-- A script whose only command is a pause between two numbers of milliseconds compiles if they are
numbers of 64 bits in order, and then the pause has exactly these bounds. -/
theorem compile_wait_iff {before after : List String} (hbefore : ∀ l ∈ before, IsIdle l)
    (hafter : ∀ l ∈ after, IsIdle l) {a b : Nat} {first second : String}
    (ha : WritesMillis a first.toList) (hb : WritesMillis b second.toList) {line : String}
    (hline : WritesLine Builtin.wait.name [first, second] line) {script : Script} :
    builtin.compile (before ++ line :: after) = .ok script ↔
      (a < bound64 ∧ b < bound64 ∧ a ≤ b) ∧
        script = ⟨[⟨before.length + 1, [first, second], .wait (.ofMillis a) (.ofMillis b)⟩],
          (before ++ line :: after).length⟩ := by
  rw [compile_alone hbefore hafter (read_of_writesLine hline) (compileLine_wait first second _)]
  obtain ⟨hlow, hfirst⟩ | ⟨hlow, e, hfirst⟩ := Span.parse_cases ha
  · obtain ⟨hhigh, hsecond⟩ | ⟨hhigh, e, hsecond⟩ := Span.parse_cases hb
    · rw [hfirst, hsecond]
      dsimp only
      -- Both are read, and only their order is left.
      by_cases hle : a ≤ b
      · rw [if_neg (Nat.not_lt.mpr (Span.nanos_ofMillis_le_iff.mpr hle))]
        constructor
        · intro h
          cases h
          exact ⟨⟨hlow, hhigh, hle⟩, rfl⟩
        · rintro ⟨-, rfl⟩
          rfl
      · rw [if_pos (Nat.lt_of_not_le fun h => hle (Span.nanos_ofMillis_le_iff.mp h))]
        exact ⟨nofun, fun h => absurd h.1.2.2 hle⟩
    · rw [hfirst, hsecond]
      exact ⟨nofun, fun h => absurd h.1.2.1 hhigh⟩
  · rw [hfirst]
    exact ⟨nofun, fun h => absurd h.1.1 hlow⟩

end Catalog

/-- However a number of milliseconds is written, with zeros in front, with a plus sign, with its
unit and with blanks around it and in front of the unit, it is a span exactly if it is below
`2 ^ 64`, and the span is exact. So a script whose only command is a pause between two such numbers,
written in any way and among blank lines and comments, compiles exactly if both are below `2 ^ 64`
and in order, and the pause has these bounds. The plainest line with a pause between two numbers is
one with a blank in front of each. -/
theorem milliseconds_exact :
    (∀ {n : Nat} {text : String}, WritesMillis n text.toList →
      ((∃ span, Span.parse text = .ok span) ↔ n < bound64) ∧
        ∀ span, Span.parse text = .ok span → span.nanos = n * 1000000) ∧
    (∀ {a b : Nat} {first second : String}, WritesMillis a first.toList →
      WritesMillis b second.toList → ∀ {before after : List String}, (∀ l ∈ before, IsIdle l) →
      (∀ l ∈ after, IsIdle l) → ∀ {line : String},
      WritesLine Builtin.wait.name [first, second] line →
        let result := builtin.compile (before ++ line :: after)
        ((∃ script, result = .ok script) ↔ a < bound64 ∧ b < bound64 ∧ a ≤ b) ∧
          ∀ script, result = .ok script → script.instructions =
            [⟨before.length + 1, [first, second], .wait (.ofMillis a) (.ofMillis b)⟩]) ∧
    ∀ a b : Nat,
      (∃ script, builtin.compile ["Wait " ++ toString a ++ " " ++ toString b] = .ok script) ↔
        a < bound64 ∧ b < bound64 ∧ a ≤ b := by
  refine ⟨?_, ?_, ?_⟩
  · intro n text hn
    have hread {span : Span} : Span.parse text = .ok span ↔ _ := Span.parse_iff hn
    refine ⟨⟨fun ⟨_, hspan⟩ => (hread.mp hspan).1, fun hfits => ⟨_, hread.mpr ⟨hfits, rfl⟩⟩⟩, ?_⟩
    intro span hspan
    rw [(hread.mp hspan).2, Span.nanos_ofMillis]
  · intro a b first second ha hb before after hbefore hafter line hline result
    have hresult {script : Script} : result = .ok script ↔ _ :=
      compile_wait_iff hbefore hafter ha hb hline
    refine ⟨⟨fun ⟨_, h⟩ => (hresult.mp h).1, fun hbounds => ⟨_, hresult.mpr ⟨hbounds, rfl⟩⟩⟩, ?_⟩
    intro script hscript
    rw [(hresult.mp hscript).2]
  · intro a b
    have hnone : ∀ l ∈ ([] : List String), IsIdle l := by simp
    have hline : WritesLine Builtin.wait.name [toString a, toString b]
        ("Wait " ++ toString a ++ " " ++ toString b) :=
      writesLine_toString (Builtin.isPlainName .wait).isWord a b
    have hresult {script : Script} : builtin.compile _ = .ok script ↔ _ :=
      compile_wait_iff hnone hnone (writesNatural_toString a).writesMillis
        (writesNatural_toString b).writesMillis hline
    exact ⟨fun ⟨_, h⟩ => (hresult.mp h).1, fun hbounds => ⟨_, hresult.mpr ⟨hbounds, rfl⟩⟩⟩

/-- The greatest number of 64 bits, bare behind a comment and with a plus sign and its unit between
quotes, and the number after it. -/
theorem milliseconds_exact_at_bound :
    (∃ span, Span.parse "\t+018446744073709551615 ms " = .ok span ∧
      span.nanos = 18446744073709551615000000) ∧
    (∃ script, builtin.compile
        ["# the longest", "Wait 18446744073709551615 \"+018446744073709551615 ms\""] = .ok script ∧
      script.instructions = [⟨2, ["18446744073709551615", "+018446744073709551615 ms"],
        .wait (.ofMillis 18446744073709551615) (.ofMillis 18446744073709551615)⟩]) ∧
    (¬∃ script, builtin.compile ["Wait 5 18446744073709551616"] = .ok script) ∧
    ¬∃ script, builtin.compile ["Wait 5 4"] = .ok script := by
  have hgap : IsGap [' '] := by decide
  have hnone : IsGap [] := by decide
  have hplain : WritesNatural 18446744073709551615 "18446744073709551615".toList :=
    (unsigned?_iff.mp (by decide : natural64? "18446744073709551615" = _)).2
  have hsigned : WritesNatural 18446744073709551615 "+018446744073709551615".toList :=
    (unsigned?_iff.mp (by decide : natural64? "+018446744073709551615" = _)).2
  have hspan : WritesMillis 18446744073709551615 "\t+018446744073709551615 ms ".toList :=
    .unit (by decide : IsGap ['\t']) hsigned hgap hgap
  have hquoted : WritesMillis 18446744073709551615 "+018446744073709551615 ms".toList :=
    .unit hnone hsigned hgap hnone
  have hcomment : ∀ l ∈ ["# the longest"], IsIdle l := by decide +kernel
  have hempty : ∀ l ∈ ([] : List String), IsIdle l := by simp
  refine ⟨?_, ?_, ?_, ?_⟩
  · obtain ⟨haccepts, hexact⟩ := milliseconds_exact.1 hspan
    obtain ⟨span, hread⟩ := haccepts.mpr (by decide)
    exact ⟨span, hread, hexact span hread⟩
  · have hbody : WritesBody "+018446744073709551615 ms".toList "+018446744073709551615 ms".toList :=
      writesBody_spell "+018446744073709551615 ms".toList
    have hparams : WritesParams ["18446744073709551615", "+018446744073709551615 ms"] _ :=
      .cons hgap (List.cons_ne_nil _ _) (.bare hplain.isWord)
        (.cons hgap (List.cons_ne_nil _ _) (.quoted hbody) .nil)
    have hline : WritesLine Builtin.wait.name
        ["18446744073709551615", "+018446744073709551615 ms"]
        "Wait 18446744073709551615 \"+018446744073709551615 ms\"" :=
      .line hnone (by decide) hparams (.blank hnone)
    obtain ⟨hcompiles, hexact⟩ :=
      milliseconds_exact.2.1 hplain.writesMillis hquoted hcomment hempty hline
    obtain ⟨script, hscript⟩ := hcompiles.mpr (by decide)
    exact ⟨script, hscript, hexact script hscript⟩
  · exact fun h => absurd ((milliseconds_exact.2.2 5 18446744073709551616).mp h) (by decide)
  · exact fun h => absurd ((milliseconds_exact.2.2 5 4).mp h) (by decide)

end InputScript
