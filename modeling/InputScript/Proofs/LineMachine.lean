import InputScript.Engine.Event
import InputScript.Timer
import InputScript.Proofs.Command.Gesture

/-!
# `InputScript.Proofs.LineMachine`: scripts as programs with line numbers

What a script means can be said without instructions, indices or suspended programs. The line
machine of this module keeps the text of the script and the number of a line in it. It looks
for the first line from there on that holds a command, executes it, and goes on at the line
behind it, or where a jump leads. A command that is executed is a list of effects and pauses.
How long a pause takes is given as a timer.

* `LineMachine.step`: the machine does one line.
* `LineMachine.fetch_eq`: what it finds at a line is the instruction that the compiled script
  has for that line.
* `Command.plays_program`: the program of a command does what the machine takes it to do,
  unless it directs the run.
-/

set_option autoImplicit false

namespace InputScript

/-- What a command does besides directing the run. -/
inductive Action where
  | perform (effect : Effect)
  | sleep (span : Span)

/-- Actions that begin at a time: the time at which they are over, and the effects with their
times. -/
def Action.play (timer : Timer) (now : Nat) : List Action → Nat × List (Nat × Event)
  | [] => (now, [])
  | .perform effect :: rest =>
    let (finish, events) := play timer now rest
    (finish, (now, .performed effect) :: events)
  | .sleep span :: rest => play timer (now + timer.wait span) rest

namespace Command

/-- What a command does. A text is typed with a pause between any two characters. -/
def actions : Command → List Action
  | wait min _ => [.sleep min]
  | keyDown key => [.perform (.key key .down)]
  | keyUp key => [.perform (.key key .up)]
  | keyPress chord => (strike chord).map .perform
  | typeText text delay =>
    ((text.toList.map fun c => (press (keyFor c)).map Action.perform).intersperse
      [.sleep delay]).flatten
  | mouseMove x y => [.perform (.move x y)]
  | mouseDown button => [.perform (.button button .down)]
  | mouseUp button => [.perform (.button button .up)]
  | mouseClick button => (click button).map .perform
  | mouseWheel delta => [.perform (.wheel delta)]
  | call _ | label _ | stop | custom .. => []

/-- Whether a command directs the run: it jumps or stops. -/
def Directs : Command → Prop
  | call target => 0 < target
  | stop => True
  | _ => False

/-- Whether a command leaves nothing to chance. -/
def IsFixed : Command → Prop
  | wait min max => max.nanos ≤ min.nanos
  | _ => True

end Command

/-- A script without a random pause. -/
def Script.IsFixed (script : Script) : Prop :=
  ∀ i ∈ script.instructions, i.command.IsFixed

/-! ### The machine -/

namespace LineMachine

/-- The first command on a line from `line` on, in a text whose first line has the given
number. -/
def nextCommand (line number : Nat) : List String → Option SourceLine
  | [] => none
  | text :: rest =>
    match LineContent.read text with
    | .command name params =>
      if line ≤ number then some ⟨number, name, params⟩ else nextCommand line (number + 1) rest
    | _ => nextCommand line (number + 1) rest

/-- The first command from a line on, with its parameters read. -/
def fetch (lines : List String) (line : Nat) : Option Instruction :=
  match Source.ofLines lines with
  | .error _ => none
  | .ok source =>
    (nextCommand line 1 lines).bind fun c => (Catalog.builtin.compileLine source c).toOption

/-- The state of the machine between two lines. -/
structure Config where
  /-- The number of the line from which on a command is looked for. -/
  line : Nat
  now : Nat
  /-- Whether a line has been executed. -/
  begun : Bool
  /-- The lines that were executed and the effects that were performed, with their times. -/
  trace : List (Nat × Event)
  /-- How the run ended, if it has. -/
  outcome : Option Outcome

/-- The machine at the first line. -/
def start (now : Nat) : Config :=
  ⟨1, now, false, [], none⟩

/-- The time at which the next line is executed: there is a line delay before every line but
the first. -/
def Config.due (c : Config) (timer : Timer) (lineDelay : Span) : Nat :=
  if c.begun then c.now + timer.wait lineDelay else c.now

/-- Executes an instruction at a time. -/
def Config.execute (c : Config) (timer : Timer) (time : Nat) (i : Instruction) : Config :=
  let played := Action.play timer time i.command.actions
  let next : Config := ⟨i.line + 1, played.1, true,
    c.trace ++ (time, .executing i.line i.name) :: played.2, none⟩
  match i.command with
  | .call target => if 0 < target then { next with line := target.toNat } else next
  | .stop => { next with outcome := some .stopped }
  | _ => next

/-- Does one line. The run has ended when there is no line left. -/
def step (timer : Timer) (lines : List String) (lineDelay : Span) (c : Config) : Config :=
  match c.outcome with
  | some _ => c
  | none =>
    match fetch lines c.line with
    | none => { c with outcome := some .completed }
    | some i => c.execute timer (c.due timer lineDelay) i

/-- The machine that started at a time, after a number of steps. -/
def run (timer : Timer) (lines : List String) (lineDelay : Span) (time : Nat) : Nat → Config
  | 0 => start time
  | n + 1 => step timer lines lineDelay (run timer lines lineDelay time n)

variable {timer : Timer}

/-- Executing an instruction adds its beginning and its effects to the trace. -/
theorem trace_execute (c : Config) (time : Nat) (i : Instruction) :
    (c.execute timer time i).trace = c.trace ++ (time, .executing i.line i.name) ::
      (Action.play timer time i.command.actions).2 := by
  rw [Config.execute]
  split
  · split <;> rfl
  · rfl
  · rfl

/-- An instruction that does not direct the run leads to the line behind it. -/
theorem execute_of_not_directs (c : Config) (time : Nat) {i : Instruction}
    (h : ¬ i.command.Directs) :
    c.execute timer time i = ⟨i.line + 1, (Action.play timer time i.command.actions).1, true,
      c.trace ++ (time, .executing i.line i.name) :: (Action.play timer time i.command.actions).2,
      none⟩ := by
  rw [Config.execute]
  split
  · rename_i target htarget
    rw [htarget] at h
    exact if_neg h
  · rename_i hstop
    rw [hstop] at h
    exact absurd trivial h
  · rfl

/-- A step only adds to the trace. -/
theorem trace_step (lines : List String) (lineDelay : Span) (c : Config) :
    c.trace <+: (step timer lines lineDelay c).trace := by
  rw [step]
  split
  · exact List.prefix_rfl
  · split
    · exact List.prefix_rfl
    · rw [trace_execute]
      exact List.prefix_append _ _

/-- The machine only adds to its trace. -/
theorem trace_run (lines : List String) (lineDelay : Span) (time : Nat) {n m : Nat} (h : n ≤ m) :
    (run timer lines lineDelay time n).trace <+: (run timer lines lineDelay time m).trace := by
  induction h with
  | refl => exact List.prefix_rfl
  | step _ ih => exact ih.trans (trace_step lines lineDelay _)

/-- A machine that has ended stays as it is. -/
theorem run_of_ended {lines : List String} {lineDelay : Span} {time n m : Nat} {outcome : Outcome}
    (hended : (run timer lines lineDelay time n).outcome = some outcome) (h : n ≤ m) :
    run timer lines lineDelay time m = run timer lines lineDelay time n := by
  induction h with
  | refl => rfl
  | step _ ih =>
    show step timer lines lineDelay _ = _
    rw [ih, step, hended]

/-- The machine has no trace beyond that with which it ended. -/
theorem trace_run_of_ended {lines : List String} {lineDelay : Span} {time n : Nat}
    {outcome : Outcome} (hended : (run timer lines lineDelay time n).outcome = some outcome)
    (m : Nat) :
    (run timer lines lineDelay time m).trace <+: (run timer lines lineDelay time n).trace := by
  rcases Nat.le_total m n with hle | hle
  · exact trace_run lines lineDelay time hle
  · have hstays := run_of_ended hended hle
    exact hstays ▸ List.prefix_rfl

/-- The machine ends in one state. -/
theorem run_eq_of_ended {lines : List String} {lineDelay : Span} {time n m : Nat}
    {first second : Outcome} (hn : (run timer lines lineDelay time n).outcome = some first)
    (hm : (run timer lines lineDelay time m).outcome = some second) :
    run timer lines lineDelay time n = run timer lines lineDelay time m := by
  rcases Nat.le_total n m with hle | hle
  · exact (run_of_ended hn hle).symm
  · exact run_of_ended hm hle

/-- The command that the machine looks for is the first one among the command lines. -/
theorem nextCommand_eq {line number : Nat} {lines : List String} {cs : List SourceLine}
    (h : Source.commandLines number lines = .ok cs) :
    nextCommand line number lines = cs.find? fun c => decide (line ≤ c.number) := by
  induction lines generalizing number cs with
  | nil =>
    cases h
    rfl
  | cons text rest ih =>
    rw [Source.commandLines] at h
    rw [nextCommand]
    split at h
    · -- A line without a command is passed over.
      rename_i hread
      rw [hread]
      exact ih h
    · cases h
    · rename_i name params hread
      rw [hread]
      split at h
      · cases h
      · rename_i hrest
        cases h
        dsimp only
        by_cases hline : line ≤ number
        · rw [if_pos hline, List.find?_cons_of_pos (by simpa using hline)]
        · rw [if_neg hline, List.find?_cons_of_neg (by simpa using hline)]
          exact ih hrest

/-- Looking for a line among command lines or among their instructions is the same. -/
theorem find?_of_forall₂ {source : Source} {line : Nat} {cs : List SourceLine}
    {is : List Instruction}
    (h : List.Forall₂ (fun c i => Catalog.builtin.compileLine source c = .ok i) cs is) :
    ((cs.find? fun c => decide (line ≤ c.number)).bind fun c =>
      (Catalog.builtin.compileLine source c).toOption) =
        is.find? fun i => decide (line ≤ i.line) := by
  induction h with
  | nil => rfl
  | @cons c i cs is hc _ ih =>
    have hline : i.line = c.number := Catalog.line_of_compileLine hc
    by_cases hle : line ≤ c.number
    · rw [List.find?_cons_of_pos (by simpa using hle),
        List.find?_cons_of_pos (by simpa [hline] using hle), Option.bind_some, hc]
      rfl
    · rw [List.find?_cons_of_neg (by simpa using hle),
        List.find?_cons_of_neg (by simpa [hline] using hle)]
      exact ih

/-- What the machine finds at a line is the instruction at the index for that line. -/
theorem fetch_eq {lines : List String} {script : Script}
    (h : Catalog.builtin.compile lines = .ok script) (line : Nat) :
    fetch lines line = script.instructions[script.indexForLine line]? := by
  obtain ⟨source, hsource, -, hpairs⟩ := Catalog.source_of_compile h
  -- Both are a search for the first line number that is large enough.
  rw [Script.getElem?_indexForLine, ← find?_of_forall₂ hpairs, fetch, hsource]
  dsimp only
  rw [nextCommand_eq (Source.commandLines_of_ofLines hsource).1]

end LineMachine

/-! ### Programs and actions -/

/-- A program that does what a list of actions says, as long as its pauses last their full
span. An empty pause may be left out. -/
inductive Program.Plays : Program → List Action → Prop where
  | done : Plays .done []
  | perform {next : Program} {rest : List Action} (effect : Effect) (h : Plays next rest) :
      Plays (.call effect next .fail) (.perform effect :: rest)
  | pause {next : Bool → Program} {rest : List Action} (span : Span) (h : Plays (next true) rest) :
      Plays (.pause span next) (.sleep span :: rest)
  | skip {p : Program} {rest : List Action} {span : Span} (hempty : span.isZero = true)
      (h : Plays p rest) : Plays p (.sleep span :: rest)

open Program (Plays)

/-- Effects before a program are actions before its own. -/
theorem Program.Plays.performAll {next : Program} {rest : List Action} (h : Plays next rest)
    (effects : List Effect) :
    Plays (Program.performAll effects next) (effects.map .perform ++ rest) := by
  induction effects with
  | nil => exact h
  | cons effect effects ih => exact .perform effect ih

namespace Command

/-- Typing on after a character is a pause and then typing. -/
theorem plays_typeAfterPause (delay : Span) (c : Char) (chars : List Char) :
    Plays (typeAfterPause delay (c :: chars)) (.sleep delay :: (((c :: chars).map fun c =>
      (press (keyFor c)).map Action.perform).intersperse [.sleep delay]).flatten) := by
  induction chars generalizing c with
  | nil =>
    -- The last character: a pause, its strokes, and nothing after them.
    have htyping := Plays.done.performAll (press (keyFor c))
    show Plays (if delay.isZero then _ else _) _
    split
    · rename_i hempty
      exact .skip hempty htyping
    · exact .pause delay htyping
  | cons d rest ih =>
    have htyping := (ih d).performAll (press (keyFor c))
    show Plays (if delay.isZero then _ else _) _
    split
    · rename_i hempty
      exact .skip hempty htyping
    · exact .pause delay htyping

/-- The program of a command does what the command is taken to do, unless it directs the
run. -/
theorem plays_program {c : Command} (hbuiltin : c.IsBuiltin) (hfixed : c.IsFixed)
    (h : ¬ c.Directs) : Plays c.program c.actions := by
  cases c with
  | call target =>
    -- A target that is not positive is no jump, and the command does nothing.
    have hbackward : ¬ 0 < target := h
    rw [program, if_neg hbackward]
    exact .done
  | label name => exact .done
  | wait min max =>
    have hchoice : max.nanos ≤ min.nanos := hfixed
    rw [program, pauseBetween, if_pos hchoice]
    exact .pause min .done
  | stop => exact absurd trivial h
  | typeText text delay =>
    rw [program, actions]
    cases text.toList with
    | nil => exact .done
    | cons c rest =>
      cases rest with
      | nil => exact Plays.done.performAll (press (keyFor c))
      | cons d rest => exact (plays_typeAfterPause delay d rest).performAll (press (keyFor c))
  | keyPress chord =>
    have hstrike := Plays.done.performAll (strike chord)
    rw [List.append_nil] at hstrike
    exact hstrike
  | mouseClick button =>
    have hclick := Plays.done.performAll (click button)
    rw [List.append_nil] at hclick
    exact hclick
  | keyDown | keyUp | mouseMove | mouseDown | mouseUp | mouseWheel =>
    exact .perform _ .done
  | custom name program => exact hbuiltin.elim

end Command

end InputScript
