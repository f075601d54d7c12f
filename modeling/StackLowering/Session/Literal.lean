import StackLowering.Expr.Basic
import StackLowering.Instruction.Basic
import StackLowering.Session.Options

/-!
The instructions that push literals.

* `Instruction.pushInt`: an integer, in the shortest form that holds it or
  through the pool.
* `Literal.push`: any literal, by one instruction.
-/

namespace StackLowering

/-- The instruction that pushes an integer.  The compact forms are tried from
the shortest on. -/
def Instruction.pushInt (compact : Bool) (value : Int32) : Instruction :=
  let n := value.toInt
  if !compact then .ldc (.int value)
  else if 0 ≤ n ∧ n ≤ 5 then .iconst (.ofNat n.toNat)
  else if -128 ≤ n ∧ n ≤ 127 then .bipush (.ofInt n)
  else if -32768 ≤ n ∧ n ≤ 32767 then .sipush (.ofInt n)
  else .ldc (.int value)

/-- The class whose static field `TYPE` holds the class object of a built-in
type. -/
def Primitive.wrapper : Primitive → String
  | boolean => "java/lang/Boolean"
  | byte => "java/lang/Byte"
  | short => "java/lang/Short"
  | char => "java/lang/Character"
  | int => "java/lang/Integer"
  | long => "java/lang/Long"
  | float => "java/lang/Float"
  | double => "java/lang/Double"
  | void => "java/lang/Void"

namespace Literal

/-- The instruction that pushes the class object of a type.  Built-in types have
no entry in the pool. -/
def pushClass (naming : Naming) (type : Ty) : Instruction :=
  match type.primitive? with
  | some kind => .getStatic ⟨kind.wrapper, "TYPE", "Ljava/lang/Class;"⟩
  | none => .ldc (.classRef (naming.internalName type))

/-- The instruction that pushes a literal. -/
def push (config : Config) : Literal → Instruction
  | null => .pushNull
  | bool value => .iconst value.toUInt8
  | byte value => .pushInt config.options.compactConstants value.toInt32
  | short value => .pushInt config.options.compactConstants value.toInt32
  | char value => .pushInt config.options.compactConstants (.ofNat value.toNat)
  | int value => .pushInt config.options.compactConstants value
  | long value => .ldc (.long value)
  | float value => .ldc (.float value)
  | double value => .ldc (.double value)
  | string value => .ldc (.string value)
  | classOf type => pushClass config.naming type

end Literal

end StackLowering
