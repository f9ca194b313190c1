import InputScript.Engine.Worker

/-!
# `InputScript.Proofs.Command.Request`: programs that ask where the run goes on

A command may ask more than once where the run is to go on, and it may ask to stop and change its
mind. What it has asked for leaves two marks on the stage: the transfer is that of the last request,
and the run is to stop from the first request to stop on. The two need not agree, since a jump
replaces the transfer but not the other mark (`Stage.Asked`).

`Program.Requests` is for programs that make the same requests in every course that they can take,
whatever else they do: they may perform effects, pause, draw numbers and look whether the run is to
stop. Such a program comes to a halt only with the marks of what it has asked for, or because the
device refuses an effect.

* `Program.requests_asking`: a program that does nothing but make requests.
* `Program.Requests.run`: how such a program halts.
-/

set_option autoImplicit false

namespace InputScript

namespace Program

/-- A program that makes requests in order, whatever happens meanwhile, and then returns. It may
perform certain effects on its way. -/
inductive Requests (may : Effect → Prop) : Program → List Transfer → Prop where
  | done : Requests may .done []
  /-- A failure of the effect is one of the program. -/
  | perform {next : Program} {requests : List Transfer} (effect : Effect) (heffect : may effect)
      (h : Requests may next requests) : Requests may (.call effect next .fail) requests
  /-- The requests are made whether or not the effect fails. -/
  | call {next : Program} {failed : String → Program} {requests : List Transfer} (effect : Effect)
      (heffect : may effect) (h : Requests may next requests)
      (hfailed : ∀ cause, Requests may (failed cause) requests) :
      Requests may (.call effect next failed) requests
  | pause {next : Bool → Program} {requests : List Transfer} (span : Span)
      (h : ∀ full, Requests may (next full) requests) : Requests may (.pause span next) requests
  | stopping {next : Bool → Program} {requests : List Transfer}
      (h : ∀ stops, Requests may (next stops) requests) : Requests may (.stopping next) requests
  | jump {next : Program} {requests : List Transfer} (line : Nat) (h : Requests may next requests) :
      Requests may (.jump line next) (.line line :: requests)
  | stop {next : Program} {requests : List Transfer} (h : Requests may next requests) :
      Requests may (.stop next) (.stop :: requests)
  | choose {next : Nat → Program} {requests : List Transfer} (low high : Nat)
      (h : ∀ n, Requests may (next n) requests) : Requests may (.choose low high next) requests

/-- The program that makes requests and does nothing else. -/
def asking : List Transfer → Program
  | [] => .done
  | .line line :: rest => .jump line (asking rest)
  | .stop :: rest => .stop (asking rest)

/-- Such a program performs no effect at all. -/
theorem requests_asking (requests : List Transfer) :
    Requests (fun _ => False) (asking requests) requests := by
  induction requests with
  | nil => exact .done
  | cons request rest ih =>
    cases request with
    | line line => exact .jump line ih
    | stop => exact .stop ih

end Program

open Program (Requests)

/-- The marks that requests have left on a stage. -/
structure Stage.Asked (s : Stage) (made : List Transfer) : Prop where
  /-- The transfer is the last request. -/
  transfer : s.transfer = made.getLast?
  /-- The run is to stop if that was among the requests, be it the last or not. -/
  cancelled : s.cancelled = true ↔ .stop ∈ made

namespace Stage.Asked

variable {s s' : Stage} {made : List Transfer}

theorem of_eq (h : s.Asked made) (htransfer : s'.transfer = s.transfer)
    (hcancelled : s'.cancelled = s.cancelled) : s'.Asked made :=
  ⟨htransfer.trans h.transfer, hcancelled ▸ h.cancelled⟩

/-- A call of a device that asks for no stop leaves the marks as they are. -/
theorem call (h : s.Asked made) {device : Device}
    (hdevice : ∀ call effect, (device call effect).stops = false) (effect : Effect) :
    (s.call device effect).Asked made := by
  refine h.of_eq (s.transfer_call device effect) ?_
  rw [Stage.cancelled_call, Stage.reply, hdevice, Bool.or_false]

/-- An instruction begins without a mark. -/
theorem begin (hgoes : s.cancelled = false) (index : Nat) (i : Instruction) :
    (s.beginInstruction index i).Asked [] where
  transfer := rfl
  cancelled := by simp [beginInstruction, record, hgoes]

/-- A jump replaces the transfer. -/
theorem jump (h : s.Asked made) (line : Nat) :
    Stage.Asked { s with transfer := some (.line line) } (made ++ [.line line]) where
  transfer := List.getLast?_concat.symm
  cancelled := by simp [h.cancelled]

/-- A stop leaves both marks, whatever there was before. -/
theorem stop (s : Stage) (made : List Transfer) :
    Stage.Asked { s with transfer := some .stop, cancelled := true } (made ++ [.stop]) where
  transfer := List.getLast?_concat.symm
  cancelled := by simp

end Stage.Asked

/-- What the halt of a program says that makes requests: it has left the marks of all of them, or of
the first few if it sleeps, and only an effect that was refused keeps it from returning. -/
def Halt.Makes (may : Effect → Prop) (requests : List Transfer) (s : Stage) : Halt → Prop
  | .returned => s.Asked requests
  | .asleep _ rest => ∃ made left, made ++ left = requests ∧ s.Asked made ∧
    ∀ full, Requests may (rest full) left
  | .failed _ => ∃ effect, may effect
  | .crashed => ∃ effect, may effect

/-- What is left of a program adds its requests to those that were made before. -/
theorem Program.Requests.run {env : Surroundings}
    (hdevice : ∀ call effect, (env.device call effect).stops = false) {may : Effect → Prop}
    {p : Program} {left : List Transfer} (h : Requests may p left) {s : Stage}
    {made : List Transfer} (hmade : s.Asked made) :
    (p.run env s).2.Makes may (made ++ left) (p.run env s).1 := by
  induction h generalizing s made with
  | done =>
    rw [List.append_nil]
    exact hmade
  | perform effect heffect _ ih =>
    rw [Program.run]
    cases (s.reply env.device effect).answer with
    | done => exact ih (hmade.call hdevice effect)
    | failed cause performed => exact ⟨effect, heffect⟩
    | crashed performed => exact ⟨effect, heffect⟩
  | call effect heffect _ _ ih ihFailed =>
    rw [Program.run]
    cases (s.reply env.device effect).answer with
    | done => exact ih (hmade.call hdevice effect)
    | failed cause performed => exact ihFailed cause (hmade.call hdevice effect)
    | crashed performed => exact ⟨effect, heffect⟩
  | pause span hnext ih =>
    rw [Program.run]
    split
    · exact ih _ hmade
    · exact ⟨made, _, rfl, hmade, hnext⟩
  | stopping _ ih => exact ih s.cancelled hmade
  | @jump next requests line _ ih =>
    have hlater := ih (hmade.jump line)
    rwa [List.append_assoc] at hlater
  | @stop next requests _ ih =>
    have hlater := ih (.stop s made)
    rwa [List.append_assoc] at hlater
  | choose low high _ ih => exact ih _ (hmade.of_eq rfl rfl)

end InputScript
