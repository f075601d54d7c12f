import StackLowering.Code.Basic
import StackLowering.Session.Lower

/-!
Whole expressions.

* `Expr.compile`: lowering, and then the check that the tree left the values it
  should.
* `Step`, `Session.step`: one expression handled in a session; a step that fails
  leaves what it has emitted.
* `Expr.toCode`: one expression on its own.
-/

namespace StackLowering

variable {σ : Type} [Sink σ]

/-- Emits the instructions of a tree and, unless the options say otherwise,
checks that the depth has changed as the tree says. -/
def Expr.compile (config : Config) (e : Expr) : Lowering σ Unit := do
  let before := (← get).depth
  e.lower config
  let after := (← get).depth
  if config.options.checkBalance ∧ after ≠ before + e.stackEffect then
    throw (.stackImbalance (before + e.stackEffect) after)

/-- One thing done in a session: an expression compiled with the check of its
balance, or only lowered. -/
inductive Step where
  | compile (e : Expr)
  | lower (e : Expr)

/-- What a step does. -/
def Step.action (config : Config) : Step → Lowering σ Unit
  | compile e => e.compile config
  | lower e => e.lower config

namespace Session

/-- The session after a step, and the fault if the step failed.  A step that
failed is not undone. -/
def step (config : Config) (s : Session σ) (step : Step) : Option Fault × Session σ :=
  match (step.action config).run s with
  | .ok _ s' => (none, s')
  | .error fault s' => (some fault, s')

end Session

/-- The code of one expression. -/
def Expr.toCode (config : Config) (e : Expr) : Except Fault Code :=
  match Session.step config (.start Code.empty) (.compile e) with
  | (some fault, _) => .error fault
  | (none, s) => s.finish.map (·.1)

end StackLowering
