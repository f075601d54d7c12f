import StackLowering.Instruction.Basic

/-!
Receivers of code.  A sink takes instructions in order and is told where labels
stand.  `Trace` is the sink that keeps everything it was told.
-/

namespace StackLowering

/-- A receiver of instructions and label positions. -/
class Sink (σ : Type) where
  /-- Takes the next instruction. -/
  emit : σ → Instruction → σ
  /-- Is told that a label stands before the next instruction. -/
  placeLabel : σ → Label → σ

/-- What a sink may be told. -/
inductive Event where
  | emitted (instruction : Instruction)
  | placed (label : Label)
  deriving DecidableEq, Repr

/-- Everything a sink was told, in order. -/
structure Trace where
  events : Array Event := #[]
  deriving DecidableEq, Repr

instance : Sink Trace where
  emit t i := ⟨t.events.push (.emitted i)⟩
  placeLabel t l := ⟨t.events.push (.placed l)⟩

end StackLowering
