import InputScript.Proofs.LineMachine.StraightLine
import InputScript.Proofs.Script.Inserted

/-!
# `InputScript.Proofs.LineMachine.BoundedInteger`: coordinates and distances are exact

The coordinates of a move and the distance of a scroll are integers of 32 bits. However an integer
is written, it is taken as it is or refused: there is no third way, at either end of the range. A
command with such parameters stands alone among blank lines and comments here, so that what becomes
of the script is what becomes of the command.

A refusal names the first parameter that is out of range, with the text that was written. A script
that compiles performs one effect in every run, with the integers that were written.

* `integer32?_of_writesInteger`: which integers are read.
* `Catalog.compile_alone`: a script with one command line.
* `Script.PerformsOnce`: what a run of such a script does.
* `integers_within_bounds`: from the text to the effect.
-/

set_option autoImplicit false

namespace InputScript

open Catalog Number

/-! ### Integers of 32 bits as parameters -/

/-- The integers of 32 bits. -/
def IsInteger32 (z : Int) : Prop :=
  -2147483648 ≤ z ∧ z ≤ 2147483647
deriving Decidable

/-- An integer is read, however it is written, as long as it is one of 32 bits. -/
theorem integer32?_of_writesInteger {z : Int} {text : String}
    (h : WritesInteger z text.toList) :
    integer32? text = if IsInteger32 z then some z else none := by
  have hrange : (decide (-((0x80000000 : Nat) : Int) ≤ z) &&
      decide (z < (0x80000000 : Nat))) = decide (IsInteger32 z) := by
    rw [← Bool.decide_and, decide_eq_decide, IsInteger32]
    omega
  rw [integer32?, signed?_of_writesInteger h, Option.filter_some, hrange]
  simp

namespace Scope

/-- A parameter that stands for an integer of 32 bits is read, and any other one is refused under
its name. -/
theorem read_of_writesInteger (scope : Scope) (index : Nat) {z : Int} {text : String}
    (hparam : scope.param? index = some text) (h : WritesInteger z text.toList) (what : String) :
    scope.read index what integer32? =
      if IsInteger32 z then .ok z else .error (.invalid (.invalid what text)) := by
  rw [read, hparam]
  dsimp only
  rw [integer32?_of_writesInteger h]
  by_cases hz : IsInteger32 z <;> simp [hz]

end Scope

/-! ### One command line among others that hold nothing -/

namespace Source

/-- Lines without a command leave nothing but their number. -/
theorem commandLines_append_of_idle {before : List String} (h : ∀ l ∈ before, IsIdle l)
    (number : Nat) (rest : List String) :
    commandLines number (before ++ rest) = commandLines (number + before.length) rest := by
  induction before generalizing number with
  | nil => rfl
  | cons l before ih =>
    rw [List.forall_mem_cons] at h
    have hread := (read_eq_nothing_iff l).mpr h.1
    have hnumber : number + (l :: before).length = number + 1 + before.length := by
      rw [List.length_cons]
      omega
    rw [List.cons_append, commandLines, hread, hnumber]
    exact ih h.2 (number + 1)

/-- A text with one command line is split into it. -/
theorem ofLines_alone {before after : List String} (hbefore : ∀ l ∈ before, IsIdle l)
    (hafter : ∀ l ∈ after, IsIdle l) {line name : String} {params : List String}
    (hread : LineContent.read line = .command name params) :
    ofLines (before ++ line :: after) =
      .ok ⟨[⟨before.length + 1, name, params⟩], (before ++ line :: after).length⟩ := by
  have hrest (number : Nat) : commandLines number after = .ok [] := by
    have hall := commandLines_append_of_idle hafter number []
    rwa [List.append_nil] at hall
  rw [ofLines, commandLines_append_of_idle hbefore, Nat.add_comm, commandLines, hread]
  dsimp only
  rw [hrest]

end Source

namespace Catalog

/-- A text with one command line compiles as that line does. -/
theorem compile_alone {before after : List String} (hbefore : ∀ l ∈ before, IsIdle l)
    (hafter : ∀ l ∈ after, IsIdle l) {line name : String} {params : List String}
    (hread : LineContent.read line = .command name params)
    {result : Except CompileError Instruction}
    (hresult : ∀ source, builtin.compileLine source ⟨before.length + 1, name, params⟩ = result) :
    builtin.compile (before ++ line :: after) =
      result.map fun i => ⟨[i], (before ++ line :: after).length⟩ := by
  rw [compile, Source.ofLines_alone hbefore hafter hread]
  dsimp only
  rw [compileLines, hresult]
  cases result <;> rfl

variable {x y : Int} {textX textY : String}

/-- A move compiles if both of its coordinates are integers of 32 bits, and else the first one that
is not is refused. -/
theorem compileLine_mouseMove (hx : WritesInteger x textX.toList)
    (hy : WritesInteger y textY.toList) (number : Nat) (source : Source) :
    builtin.compileLine source ⟨number, Builtin.mouseMove.name, [textX, textY]⟩ =
      if IsInteger32 x then
        if IsInteger32 y then .ok ⟨number, [textX, textY], .mouseMove x y⟩
        else .error
          (.invalidParameters Builtin.mouseMove.name number (.invalid "y coordinate" textY))
      else .error
        (.invalidParameters Builtin.mouseMove.name number (.invalid "x coordinate" textX)) := by
  have hfind : builtin.find? Builtin.mouseMove.name =
      some (descriptor .mouseMove (.exactly 2) "MouseMove <x> <y>") := by
    with_unfolding_all rfl
  have hreadX := Scope.read_of_writesInteger ⟨number, [textX, textY], source⟩ 0 rfl hx
    "x coordinate"
  have hreadY := Scope.read_of_writesInteger ⟨number, [textX, textY], source⟩ 1 rfl hy
    "y coordinate"
  rw [compileLine_builtin hfind rfl, Builtin.prepare, Builtin.prepareMouseMove, hreadX, hreadY]
  by_cases hfitsX : IsInteger32 x
  · by_cases hfitsY : IsInteger32 y
    · simp only [if_pos hfitsX, if_pos hfitsY]
      rfl
    · simp only [if_pos hfitsX, if_neg hfitsY]
      rfl
  · simp only [if_neg hfitsX]
    rfl

/-- A scroll compiles if its distance is an integer of 32 bits, and else the distance is refused. -/
theorem compileLine_mouseWheel (hx : WritesInteger x textX.toList) (number : Nat)
    (source : Source) :
    builtin.compileLine source ⟨number, Builtin.mouseWheel.name, [textX]⟩ =
      if IsInteger32 x then .ok ⟨number, [textX], .mouseWheel x⟩
      else .error
        (.invalidParameters Builtin.mouseWheel.name number (.invalid "wheel delta" textX)) := by
  have hfind : builtin.find? Builtin.mouseWheel.name =
      some (descriptor .mouseWheel (.exactly 1) "MouseWheel <delta>") := by
    with_unfolding_all rfl
  have hread := Scope.read_of_writesInteger ⟨number, [textX], source⟩ 0 rfl hx "wheel delta"
  rw [compileLine_builtin hfind rfl, Builtin.prepare, hread]
  by_cases hfits : IsInteger32 x
  · simp only [if_pos hfits]
    rfl
  · simp only [if_neg hfits]
    rfl

end Catalog

/-! ### What a run does -/

/-- A script whose runs perform one effect. Whatever the delays are and whatever is done meanwhile,
but for a stop, on a device that performs every effect a run begins the one instruction when the
start delay is over, performs the effect and nothing else, and is completed. -/
def Script.PerformsOnce (script : Script) (line : Nat) (name : String) (effect : Effect) : Prop :=
  ∀ (e : Engine) (lineDelay : Span) (ops : List Operation), e.isRunning = false →
    (∀ call asked, e.surroundings.device call asked = .done) → (∀ op ∈ ops, op ≠ .stop) →
    let time := e.stage.now + e.surroundings.timer.wait e.startDelay
    Traces (e.start script lineDelay).1
      [(time, .executing line name), (time, .performed effect)] time
      ((e.start script lineDelay).1.performAll ops)

/-- A script of one instruction whose only action is an effect performs it once. -/
theorem performsOnce_of_actions {lines : List String} {i : Instruction} {count : Nat}
    {effect : Effect} (hcompile : builtin.compile lines = .ok ⟨[i], count⟩)
    (hactions : i.command.actions = [.perform effect]) (hdirects : ¬ i.command.Directs)
    (hfixed : i.command.IsFixed) :
    Script.PerformsOnce ⟨[i], count⟩ i.line i.name effect := by
  intro e lineDelay ops hidle hdevice hops time
  have hstraight : Script.IsStraight ⟨[i], count⟩ := by
    intro j hj
    obtain rfl := List.mem_singleton.mp hj
    exact ⟨hdirects, hfixed⟩
  have htraces : Traces (e.start ⟨[i], count⟩ lineDelay).1
      (Script.timeline ⟨[i], count⟩ e.surroundings.timer lineDelay time 1)
      (Script.overAt ⟨[i], count⟩ e.surroundings.timer lineDelay time 1)
      ((e.start ⟨[i], count⟩ lineDelay).1.performAll ops) :=
    traces_straight hcompile hstraight hidle hdevice lineDelay hops
  -- The pause of a command is how long its actions take, and an effect takes no time.
  have hpause : i.command.pause e.surroundings.timer = 0 := by
    have htime := LineMachine.play_actions_time e.surroundings.timer 0 i.command
    rw [hactions, Nat.zero_add] at htime
    exact htime.symm
  have hbegins : Script.beginsAt ⟨[i], count⟩ e.surroundings.timer lineDelay time 0 = time := by
    simp [Script.beginsAt, Script.pauses]
  have hover : Script.overAt ⟨[i], count⟩ e.surroundings.timer lineDelay time 1 = time := by
    rw [Script.overAt_succ _ lineDelay time (i := i) rfl, hbegins, hpause, Nat.add_zero]
  have htimeline : Script.timeline ⟨[i], count⟩ e.surroundings.timer lineDelay time 1 =
      [(time, .executing i.line i.name), (time, .performed effect)] := by
    rw [Script.timeline_succ _ lineDelay time (i := i) rfl, hbegins, Instruction.traceAt, hactions]
    rfl
  rwa [hover, htimeline] at htraces

/-- What becomes of a move and of a scroll whose integers may have any size. The line is written in
any way, and so are the integers, and the line stands among blank lines and comments. A move
compiles exactly if both coordinates are integers of 32 bits, and then every run of the script moves
the pointer there, once, and does nothing else. If not, the error is about the line and names the
first coordinate that is out of range. A scroll compiles exactly if its distance is an integer of 32
bits, and then every run of the script scrolls by it, once. One blank in front of each integer is
one of the ways to write the line. -/
theorem integers_within_bounds {before after : List String} (hbefore : ∀ l ∈ before, IsIdle l)
    (hafter : ∀ l ∈ after, IsIdle l) {x y : Int} {textX textY : String}
    (hx : WritesInteger x textX.toList) (hy : WritesInteger y textY.toList) :
    let number := before.length + 1
    (∀ line, WritesLine Builtin.mouseMove.name [textX, textY] line →
      let result := builtin.compile (before ++ line :: after)
      ((∃ script, result = .ok script) ↔ IsInteger32 x ∧ IsInteger32 y) ∧
      (∀ script, result = .ok script →
        script.PerformsOnce number Builtin.mouseMove.name (.move x y)) ∧
      (¬IsInteger32 x → result = .error (.invalidParameters Builtin.mouseMove.name number
        (.invalid "x coordinate" textX))) ∧
      (IsInteger32 x → ¬IsInteger32 y → result = .error (.invalidParameters
        Builtin.mouseMove.name number (.invalid "y coordinate" textY)))) ∧
    (∀ line, WritesLine Builtin.mouseWheel.name [textX] line →
      let result := builtin.compile (before ++ line :: after)
      ((∃ script, result = .ok script) ↔ IsInteger32 x) ∧
      (∀ script, result = .ok script →
        script.PerformsOnce number Builtin.mouseWheel.name (.wheel x)) ∧
      (¬IsInteger32 x → result = .error (.invalidParameters Builtin.mouseWheel.name number
        (.invalid "wheel delta" textX)))) ∧
    WritesLine Builtin.mouseMove.name [textX, textY] ("MouseMove " ++ textX ++ " " ++ textY) ∧
    WritesLine Builtin.mouseWheel.name [textX] ("MouseWheel " ++ textX) := by
  intro number
  refine ⟨?_, ?_, ?_, ?_⟩
  · intro line hline result
    have hresult : result = _ := compile_alone hbefore hafter (read_of_writesLine hline)
      (compileLine_mouseMove hx hy number)
    by_cases hfitsX : IsInteger32 x
    · by_cases hfitsY : IsInteger32 y
      · rw [if_pos hfitsX, if_pos hfitsY] at hresult
        refine ⟨⟨fun _ => ⟨hfitsX, hfitsY⟩, fun _ => ⟨_, hresult⟩⟩, ?_, absurd hfitsX,
          fun _ => absurd hfitsY⟩
        intro script hscript
        obtain rfl := Except.ok.inj (hresult.symm.trans hscript)
        exact performsOnce_of_actions hresult rfl id trivial
      · rw [if_pos hfitsX, if_neg hfitsY] at hresult
        simp [hresult, Except.map, hfitsX, hfitsY]
    · rw [if_neg hfitsX] at hresult
      simp [hresult, Except.map, hfitsX]
  · intro line hline result
    have hresult : result = _ := compile_alone hbefore hafter (read_of_writesLine hline)
      (compileLine_mouseWheel hx number)
    by_cases hfits : IsInteger32 x
    · rw [if_pos hfits] at hresult
      refine ⟨⟨fun _ => hfits, fun _ => ⟨_, hresult⟩⟩, ?_, absurd hfits⟩
      intro script hscript
      obtain rfl := Except.ok.inj (hresult.symm.trans hscript)
      exact performsOnce_of_actions hresult rfl id trivial
    · rw [if_neg hfits] at hresult
      simp [hresult, Except.map, hfits]
  · have hparams : ∀ p ∈ [textX, textY], IsWord p.toList := by
      simpa using ⟨hx.isWord, hy.isWord⟩
    have hline := writesLine_words (Builtin.isPlainName .mouseMove).isWord hparams
    have htext : String.ofList (Builtin.mouseMove.name.toList ++
        [textX, textY].flatMap fun p => ' ' :: p.toList) =
          "MouseMove " ++ textX ++ " " ++ textY := by
      rw [String.ext_iff]
      simp [Builtin.name]
    rwa [htext] at hline
  · have hline := hx.writesLine (Builtin.isPlainName .mouseWheel).isWord
    have htext : Builtin.mouseWheel.name ++ " " = "MouseWheel " := by decide
    rwa [htext] at hline

/-- The least and the greatest integer of 32 bits behind a comment, written with a sign, with zeros
in front and with quotes, and an integer just out of range with another one behind it. -/
theorem integers_within_bounds_at_ends :
    (∃ script, builtin.compile ["# to the corner", " MouseMove -02147483648 \"+2147483647\" #"] =
        .ok script ∧
      script.PerformsOnce 2 "MouseMove" (.move (-2147483648) 2147483647)) ∧
    builtin.compile ["MouseMove 2147483648 -2147483649"] =
      .error (.invalidParameters "MouseMove" 1 (.invalid "x coordinate" "2147483648")) := by
  have hlow : WritesInteger (-2147483648) "-02147483648".toList :=
    .minus (by decide : natural? "02147483648".toList = some 2147483648)
  have hhigh : WritesInteger 2147483647 "+2147483647".toList :=
    .plus (by decide : natural? "2147483647".toList = some 2147483647)
  have hcomment : ∀ l ∈ ["# to the corner"], IsIdle l := by decide +kernel
  have hnone : ∀ l ∈ ([] : List String), IsIdle l := by simp
  constructor
  · have hbody : WritesBody "+2147483647".toList "+2147483647".toList :=
      writesBody_spell "+2147483647".toList
    have hparams : WritesParams ["-02147483648", "+2147483647"] _ :=
      .cons (by decide : IsGap [' ']) (List.cons_ne_nil _ _) (.bare hlow.isWord)
        (.cons (by decide : IsGap [' ']) (List.cons_ne_nil _ _) (.quoted hbody) .nil)
    have hline : WritesLine "MouseMove" ["-02147483648", "+2147483647"]
        " MouseMove -02147483648 \"+2147483647\" #" :=
      .line (by decide : IsGap [' ']) (by decide) hparams
        (.comment [] (by decide : IsGap [' ']) (List.cons_ne_nil _ _))
    obtain ⟨hcompiles, hruns, -⟩ := (integers_within_bounds hcomment hnone hlow hhigh).1 _ hline
    obtain ⟨script, hscript⟩ := hcompiles.mpr (by decide)
    exact ⟨script, hscript, hruns script hscript⟩
  · have hline := (integers_within_bounds hnone hnone (writesInteger_toString 2147483648)
      (writesInteger_toString (-2147483649))).2.2.1
    exact ((integers_within_bounds hnone hnone (writesInteger_toString 2147483648)
      (writesInteger_toString (-2147483649))).1 _ hline).2.2.1 (by decide)

end InputScript
