import InputScript.Proofs.LineMachine.Ending
import InputScript.Proofs.Source.TypedText

/-!
# `InputScript.Proofs.LineMachine.Typing`: what is typed is the text that was written

A script of one line types a text. Followed from the line through the line machine to the
engine, the run presses one key for each character, in order, and does nothing else. Between two
characters it sleeps for the delay on the line, so an exact timer leaves the strokes that many
milliseconds apart.

* `play_actions_typeText`: what the actions of a typed text amount to.
* `machine_typing`: the line machine types the text and is done.
* `types_text`: from the text to the strokes.
-/

set_option autoImplicit false

namespace InputScript

open Catalog Number

/-- The strokes with which a text is typed from a time on: the key of each character goes down
and comes up, a number of milliseconds after that of the character before. -/
def strokes (time pause : Nat) (text : List Char) : List (Nat × Event) :=
  text.zipIdx.flatMap fun (c, i) =>
    [(time + i * pause, .performed (.key (Command.keyFor c) .down)),
      (time + i * pause, .performed (.key (Command.keyFor c) .up))]

/-- The first character is typed at once, and the others from a pause later on. -/
theorem strokes_cons (time pause : Nat) (c : Char) (rest : List Char) :
    strokes time pause (c :: rest) =
      (Command.press (Command.keyFor c)).map (fun effect => (time, .performed effect)) ++
        strokes (time + pause) pause rest := by
  have hlater (i : Nat) : time + (i + 1) * pause = time + pause + i * pause := by
    rw [Nat.succ_mul]
    omega
  simp only [strokes, List.zipIdx_cons, List.flatMap_cons, List.zipIdx_succ, List.flatMap_map,
    Nat.zero_mul, Nat.add_zero, hlater]
  rfl

namespace LineMachine

variable (timer : Timer)

/-- Effects are played at one time. -/
theorem play_perform (now : Nat) (effects : List Effect) (rest : List Action) :
    Action.play timer now (effects.map .perform ++ rest) = ((Action.play timer now rest).1,
      effects.map (fun effect => (now, .performed effect)) ++ (Action.play timer now rest).2) := by
  induction effects with
  | nil => rfl
  | cons effect effects ih =>
    rw [List.map_cons, List.cons_append, Action.play, ih]
    rfl

/-- Typing a text takes a delay between any two characters, and leaves the strokes. -/
theorem play_actions_typeText (now : Nat) (text : String) (delay : Span) :
    Action.play timer now (Command.typeText text delay).actions =
      (now + (text.toList.length - 1) * timer.wait delay,
        strokes now (timer.wait delay) text.toList) := by
  rw [Command.actions]
  generalize text.toList = chars
  induction chars generalizing now with
  | nil =>
    simp [Action.play, strokes]
  | cons c rest ih =>
    cases rest with
    | nil =>
      have hplay := play_perform timer now (Command.press (Command.keyFor c)) []
      rw [strokes_cons]
      simpa [Action.play, strokes] using hplay
    | cons d rest =>
      -- The strokes of the first character, a pause, and then the rest is typed.
      have hfirst := play_perform timer now (Command.press (Command.keyFor c)) (.sleep delay ::
        (((d :: rest).map fun c =>
          (Command.press (Command.keyFor c)).map Action.perform).intersperse
            [.sleep delay]).flatten)
      have hsleep (actions : List Action) : Action.play timer now (.sleep delay :: actions) =
          Action.play timer (now + timer.wait delay) actions := rfl
      rw [hsleep, ih (now + timer.wait delay)] at hfirst
      have hfinish : now + timer.wait delay + ((d :: rest).length - 1) * timer.wait delay =
          now + ((c :: d :: rest).length - 1) * timer.wait delay := by
        simp only [List.length_cons, Nat.add_sub_cancel, Nat.succ_mul]
        omega
      rw [strokes_cons, ← hfinish]
      exact hfirst

section Typing

variable {millis : Nat} {params : List String} {written : List Char}

/-- The line machine types the text in one step, and in the next one it is done. -/
theorem machine_typing (text : String) (h : WritesDelay millis params written) (lineDelay : Span)
    (time : Nat) :
    run timer [typingLine text written] lineDelay time 2 =
      ⟨2, time + (text.toList.length - 1) * timer.wait (.ofMillis millis), true,
        (time, .executing 1 Builtin.typeText.name) ::
          strokes time (timer.wait (.ofMillis millis)) text.toList, some .completed⟩ := by
  have hcompile : builtin.compile [typingLine text written] =
      .ok ⟨[⟨1, text :: params, .typeText text (.ofMillis millis)⟩], 1⟩ := by
    have htext := compileText_typingLine text h
    rwa [compileText, lines_typingLine text h] at htext
  have hfirst : fetch [typingLine text written] 1 =
      some ⟨1, text :: params, .typeText text (.ofMillis millis)⟩ := by
    rw [fetch_eq hcompile]
    rfl
  have hlast : fetch [typingLine text written] 2 = none := by
    rw [fetch_eq hcompile]
    rfl
  have hone : run timer [typingLine text written] lineDelay time 1 =
      ⟨2, time + (text.toList.length - 1) * timer.wait (.ofMillis millis), true,
        (time, .executing 1 Builtin.typeText.name) ::
          strokes time (timer.wait (.ofMillis millis)) text.toList, none⟩ := by
    show step timer _ lineDelay (start time) = _
    rw [step, start]
    dsimp only
    rw [hfirst]
    dsimp only
    rw [execute_of_not_directs _ _ (by simp [Command.Directs]), play_actions_typeText]
    rfl
  show step timer _ lineDelay (run timer _ lineDelay time 1) = _
  rw [hone, step]
  dsimp only
  rw [hlast]

end Typing

end LineMachine

/-! ### From the text to the strokes -/

open LineMachine in
/-- The text that is typed is the text that was written. The line with any text between double
quotes, its backslashes, double quotes, line feeds and tabs spelled with a backslash, compiles
to one instruction. A run of it that nobody stops, on a device that performs every effect,
presses for each character its key and nothing else, in order, and is completed with the last of
them. Where the timer is exact the characters follow one another at the delay on the line, which
may be any number of milliseconds below `2 ^ 64`. -/
theorem types_text :
    (∀ millis raw, millis < bound64 → natural? raw.toList = some millis →
      WritesDelay millis [raw] (' ' :: raw.toList)) ∧
    (∀ c, Command.keyFor c = if c = '\n' then .enter else if c = '\t' then .tab else
      if c = ' ' then .space else .char c) ∧
    ∀ text millis params written, WritesDelay millis params written →
      ∃ script, builtin.compileText (typingLine text written) = .ok script ∧
        (∃ i, script.instructions = [i] ∧ i.line = 1 ∧ i.name = Builtin.typeText.name ∧
          i.params = text :: params) ∧
        ∀ (e : Engine) (lineDelay : Span) (ops : List Operation), e.isRunning = false →
          (∀ call effect, e.surroundings.device call effect = .done) →
          e.surroundings.timer.IsExact → (∀ op ∈ ops, op ≠ .stop) →
          let time := e.stage.now + e.startDelay.ticks
          Traces (e.start script lineDelay).1
            ((time, .executing 1 Builtin.typeText.name) :: strokes time millis text.toList)
            (time + (text.toList.length - 1) * millis)
            ((e.start script lineDelay).1.performAll ops) := by
  refine ⟨fun millis raw h hdigits => writesDelay_of_natural? hdigits h, ?_, ?_⟩
  · intro c
    unfold Command.keyFor
    split <;> simp_all
  · intro text millis params written hdelay
    have htext := compileText_typingLine text hdelay
    refine ⟨_, htext, ⟨_, rfl, rfl, rfl, rfl⟩, ?_⟩
    intro e lineDelay ops hidle hdevice hexact hops
    dsimp only
    have hcompile := htext
    rw [compileText, lines_typingLine text hdelay] at hcompile
    have hfixed : Script.IsFixed
        ⟨[⟨1, text :: params, .typeText text (.ofMillis millis)⟩], 1⟩ := by
      simp [Script.IsFixed, Command.IsFixed]
    have hmachine := machine_typing e.surroundings.timer text hdelay lineDelay
      (e.stage.now + e.surroundings.timer.wait e.startDelay)
    have htraces := traces_of_ended (n := 2)
      (refined_launch hcompile hfixed e hdevice lineDelay ops hops) (by rw [hmachine])
    rw [hmachine, hexact.wait_ofMillis, hexact] at htraces
    rw [Engine.start_of_idle hidle]
    exact htraces

/-- Characters that are spelled with a backslash, and others that look like the end of a
parameter or of a line, typed 40 milliseconds apart. -/
theorem types_text_spelled : ∃ script,
    builtin.compileText "KeyPressText \"\\\"\\n# \\\\\\t\" 40" = .ok script ∧
    (script.instructions.map fun i => i.params) = [["\"\n# \\\t", "40"]] ∧
    Traces ((Engine.new .zero .plain).start script .zero).1
      [(0, .executing 1 "KeyPressText"),
        (0, .performed (.key (.char '"') .down)), (0, .performed (.key (.char '"') .up)),
        (40, .performed (.key .enter .down)), (40, .performed (.key .enter .up)),
        (80, .performed (.key (.char '#') .down)), (80, .performed (.key (.char '#') .up)),
        (120, .performed (.key .space .down)), (120, .performed (.key .space .up)),
        (160, .performed (.key (.char '\\') .down)), (160, .performed (.key (.char '\\') .up)),
        (200, .performed (.key .tab .down)), (200, .performed (.key .tab .up))]
      200 (((Engine.new .zero .plain).start script .zero).1.performAll [.yield 1]) := by
  have hdelay := types_text.1 40 "40" (by decide) (by decide)
  obtain ⟨script, hcompile, ⟨i, hi, -, -, hparams⟩, htraces⟩ :=
    types_text.2.2 "\"\n# \\\t" 40 ["40"] _ hdelay
  have hline : typingLine "\"\n# \\\t" (' ' :: "40".toList) =
      "KeyPressText \"\\\"\\n# \\\\\\t\" 40" := by decide +kernel
  rw [hline] at hcompile
  refine ⟨script, hcompile, ?_, ?_⟩
  · rw [hi, List.map_singleton, hparams]
  · exact htraces (Engine.new .zero .plain) .zero [.yield 1] rfl (fun _ _ => rfl)
      Timer.isExact_exact (by simp)

end InputScript
