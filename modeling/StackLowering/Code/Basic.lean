import Std.Data.HashMap
import StackLowering.Pool
import StackLowering.Sink

/-!
Code: instructions with the constants they load and the positions of labels.

* `Code.emit` appends an instruction and puts the constant it loads into the
  pool.
* `Code.placeLabel` lets a label stand before the next instruction.
* `Code.labelPosition?`, `Code.labelsAt`: positions by label and labels by
  position.
-/

namespace StackLowering

/-- A sequence of instructions.  `positions` gives, in no particular order, the
address of the instruction that each label stands before. -/
structure Code where
  instructions : Array Instruction := #[]
  pool : Pool := {}
  positions : Std.HashMap Label Nat := ∅

namespace Code

/-- Code without instructions. -/
def empty : Code := {}

/-- The number of instructions. -/
def size (c : Code) : Nat :=
  c.instructions.size

/-- Whether there are no instructions. -/
def isEmpty (c : Code) : Bool :=
  c.instructions.isEmpty

/-- Appends an instruction. -/
def emit (c : Code) (i : Instruction) : Code :=
  { c with
    instructions := c.instructions.push i
    pool := match i with
      | .ldc constant => (c.pool.intern constant).2
      | _ => c.pool }

/-- Lets a label stand before the next instruction.  A label that already has a
position moves. -/
def placeLabel (c : Code) (l : Label) : Code :=
  { c with positions := c.positions.insert l c.size }

instance : Sink Code where
  emit := emit
  placeLabel := placeLabel

/-- The position of a label. -/
def labelPosition? (c : Code) (l : Label) : Option Nat :=
  c.positions[l]?

@[simp]
theorem labelPosition?_empty (l : Label) : empty.labelPosition? l = none :=
  Std.HashMap.getElem?_empty

/-- Placing a label gives it the next address and moves no other label. -/
theorem labelPosition?_placeLabel (c : Code) (l l' : Label) :
    (c.placeLabel l).labelPosition? l'
      = if l = l' then some c.size else c.labelPosition? l' := by
  simp [labelPosition?, placeLabel, Std.HashMap.getElem?_insert]

/-- An instruction moves no label. -/
@[simp]
theorem labelPosition?_emit (c : Code) (i : Instruction) (l : Label) :
    (c.emit i).labelPosition? l = c.labelPosition? l :=
  rfl

/-- An instruction goes to the end. -/
@[simp]
theorem instructions_emit (c : Code) (i : Instruction) :
    (c.emit i).instructions = c.instructions.push i :=
  rfl

/-- Placing a label leaves the instructions alone. -/
@[simp]
theorem instructions_placeLabel (c : Code) (l : Label) :
    (c.placeLabel l).instructions = c.instructions :=
  rfl

/-- The labels at a position, in the order of their numbers. -/
def labelsAt (c : Code) (position : Nat) : List Label :=
  let labels := (c.positions.toList.filter fun (_, p) => p == position).map Prod.fst
  labels.mergeSort fun l l' => l.id ≤ l'.id

end Code

end StackLowering
