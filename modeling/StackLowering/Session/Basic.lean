import StackLowering.Label.Table
import StackLowering.Sink

/-!
The state of lowering, and its elementary steps.

* `Session`: the sink, the labels, and the depth of the stack at the point
  reached.
* `Session.start`, `Session.finish`: the beginning of a session, and its end, at
  which every label has a position.
* `Lowering`: computations that change a session and may stop with a fault.
  What was done before the fault stays done.
* `Lowering.emit`, `Lowering.branch`, `Lowering.goto`, `Lowering.newLabel`,
  `Lowering.place`: the steps that everything else is made of.
-/

namespace StackLowering

/-- Code in the making. -/
structure Session (σ : Type) where
  /-- Where the code goes. -/
  sink : σ
  labels : LabelTable := {}
  /-- The number of values on the stack at the point reached. -/
  depth : Nat := 0
  /-- The largest number of values on the stack so far. -/
  maxDepth : Nat := 0
  /-- Whether control can reach the next instruction from the one before. -/
  reachable : Bool := true

namespace Session

variable {σ : Type}

/-- A session that has not yet emitted anything. -/
def start (sink : σ) : Session σ :=
  { sink }

/-- The end of a session: the sink and the largest depth of the stack, if every
label has a position. -/
def finish (s : Session σ) : Except Fault (σ × Nat) :=
  s.labels.verify.map fun _ => (s.sink, s.maxDepth)

end Session

/-- Computations on a session.  A fault ends the computation and leaves the
session as it was when the fault arose. -/
abbrev Lowering (σ : Type) := EStateM Fault (Session σ)

namespace Lowering

variable {σ : Type}

/-- The result of a choice that may fail without touching the session. -/
def require {α : Type} (choice : Except Fault α) : Lowering σ α :=
  match choice with
  | .ok a => pure a
  | .error fault => throw fault

/-- Lets a computation on a table of labels work on the labels of the session. -/
def onLabels {α : Type} (action : Labelling α) : Lowering σ α := fun s =>
  match action.run s.labels with
  | .ok a labels => .ok a { s with labels }
  | .error fault labels => .error fault { s with labels }

/-- A new label. -/
def newLabel : Lowering σ Label :=
  onLabels LabelTable.create

/-- Records a jump to a label from the point reached. -/
def reference (target : Label) : Lowering σ Unit := do
  onLabels (LabelTable.reference target (← get).depth)

/-- The labels of the session are the only part that a computation on them sees
and changes. -/
theorem run_onLabels {α : Type} (action : Labelling α) (s : Session σ) :
    (onLabels action).run s = match action.run s.labels with
      | .ok a labels => .ok a { s with labels }
      | .error fault labels => .error fault { s with labels } :=
  rfl

theorem run_reference (target : Label) (s : Session σ) :
    (reference target).run s
      = (onLabels (LabelTable.reference target s.depth)).run s :=
  rfl

variable [Sink σ]

/-- Sends an instruction to the sink and applies its effect to the depth. -/
def emit (i : Instruction) : Lowering σ Unit := modify fun s =>
  let depth := s.depth - i.effect.pops + i.effect.pushes
  { s with
    sink := Sink.emit s.sink i
    depth := depth
    maxDepth := max s.maxDepth depth }

/-- Emitting succeeds from every session. -/
theorem run_emit (i : Instruction) (s : Session σ) :
    (emit i).run s = .ok () { s with
      sink := Sink.emit s.sink i
      depth := s.depth - i.effect.pops + i.effect.pushes
      maxDepth := max s.maxDepth (s.depth - i.effect.pops + i.effect.pushes) } :=
  rfl

/-- A conditional jump. -/
def branch (condition : Condition) (target : Label) : Lowering σ Unit := do
  emit (.branch condition target)
  reference target

/-- A jump after which control does not go on. -/
def goto (target : Label) : Lowering σ Unit := do
  emit (.goto target)
  reference target
  modify fun s => { s with reachable := false }

/-- Lets a label stand at the point reached.  The depth there is the one that
the jumps to the label and the code before it agree on. -/
def place (label : Label) : Lowering σ Unit := do
  let s ← get
  let depth ← onLabels (LabelTable.place label (if s.reachable then some s.depth else none))
  modify fun s =>
    { s with sink := Sink.placeLabel s.sink label, depth := depth, reachable := true }

/-- A label stands where its table has given it a position. -/
theorem run_place (label : Label) (s : Session σ) :
    (place label).run s
      = match (LabelTable.place label (if s.reachable then some s.depth else none)).run
          s.labels with
        | .ok depth labels =>
            .ok () { s with sink := Sink.placeLabel s.sink label, labels, depth, reachable := true }
        | .error fault labels => .error fault { s with labels } := by
  show (onLabels (LabelTable.place label _) >>= _).run s = _
  rw [EStateM.run_bind, run_onLabels]
  cases (LabelTable.place label (if s.reachable then some s.depth else none)).run s.labels <;> rfl

end Lowering

end StackLowering
