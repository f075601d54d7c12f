import StackLowering.Arithmetic
import StackLowering.Constant
import StackLowering.Instruction.ArrayKind
import StackLowering.Instruction.Condition
import StackLowering.Label.Basic
import StackLowering.Member

/-!
The instructions of the stack machine.

* `Instruction`: one instruction with its operands.
* `Instruction.effect`: how many values it takes from the stack and how many it
  puts there.
* `Instruction.target?`, `Instruction.fallsThrough`: where control may go next.
-/

namespace StackLowering

/-- A field as an instruction names it. -/
structure FieldAccess where
  owner : String
  name : String
  descriptor : String
  deriving DecidableEq, Repr

/-- A method call as an instruction names it, with the number of its arguments
and whether it leaves a value. -/
structure Call where
  dispatch : Dispatch
  owner : String
  name : String
  descriptor : String
  arguments : Nat
  returnsValue : Bool
  deriving DecidableEq, Repr

/-- The kinds of numbers that are compared by an instruction of their own, which
leaves -1, 0 or 1.  A comparison with a NaN leaves -1. -/
inductive Comparator where
  | long
  | float
  | double
  deriving DecidableEq, Repr

/-- One instruction. -/
inductive Instruction where
  /-- Push the null reference. -/
  | pushNull
  /-- Push a small integer that is part of the instruction. -/
  | iconst (value : UInt8)
  /-- Push an integer of one byte. -/
  | bipush (value : Int8)
  /-- Push an integer of two bytes. -/
  | sipush (value : Int16)
  /-- Push a constant of the pool. -/
  | ldc (constant : Constant)
  /-- Push the value of a local variable. -/
  | load (category : Category) (slot : UInt16)
  | getField (access : FieldAccess)
  | getStatic (access : FieldAccess)
  /-- Allocate an object that is not yet initialized. -/
  | new (type : String)
  | dup
  | pop
  | checkCast (type : String)
  | invoke (call : Call)
  /-- Jump if a condition on the topmost values holds. -/
  | branch (condition : Condition) (target : Label)
  | goto (target : Label)
  | arithmetic (op : ArithmeticOp) (kind : Numeric)
  | compare (comparator : Comparator)
  | convert (source target : Numeric)
  /-- Allocate an array of a built-in type. -/
  | newArray (kind : ArrayKind)
  /-- Allocate an array of references. -/
  | newRefArray (type : String)
  | arrayStore (kind : ArrayKind)
  deriving DecidableEq, Repr

/-- The effect of an instruction on the stack: how many values it takes, and how
many it then puts there. -/
structure Effect where
  pops : Nat
  pushes : Nat
  deriving DecidableEq, Repr

/-- The change in the number of values. -/
def Effect.net (e : Effect) : Int :=
  e.pushes - e.pops

namespace Instruction

/-- The effect of an instruction on the stack. -/
def effect : Instruction → Effect
  | pushNull | iconst _ | bipush _ | sipush _ | ldc _ | load .. | getStatic _ | new _ => ⟨0, 1⟩
  | getField _ | checkCast _ | convert .. | newArray _ | newRefArray _ => ⟨1, 1⟩
  | dup => ⟨1, 2⟩
  | pop => ⟨1, 0⟩
  | invoke call => ⟨call.arguments + call.dispatch.hasReceiver.toNat, call.returnsValue.toNat⟩
  | branch condition _ => ⟨condition.operands, 0⟩
  | goto _ => ⟨0, 0⟩
  | arithmetic .. | compare _ => ⟨2, 1⟩
  | arrayStore _ => ⟨3, 0⟩

/-- The label an instruction may jump to. -/
def target? : Instruction → Option Label
  | branch _ target | goto target => some target
  | _ => none

/-- Whether control can go on to the next instruction. -/
def fallsThrough : Instruction → Bool
  | goto _ => false
  | _ => true

end Instruction

end StackLowering
