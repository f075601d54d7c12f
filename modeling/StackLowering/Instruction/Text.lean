import StackLowering.Instruction.Basic
import StackLowering.Text.Column

/-!
The text of instructions: a mnemonic, and the operand in a second column.
-/

namespace StackLowering

/-- The field an instruction names: owner, name and type. -/
def FieldAccess.text (f : FieldAccess) : String :=
  f.owner ++ "." ++ f.name ++ " : " ++ f.descriptor

/-- The method a call names: owner, name and signature. -/
def Call.text (c : Call) : String :=
  c.owner ++ "." ++ c.name ++ c.descriptor

/-- The mnemonic of a comparison. -/
def Comparator.mnemonic : Comparator → String
  | long => "lcmp"
  | float => "fcmpl"
  | double => "dcmpl"

namespace Instruction

/-- A mnemonic in a column of fourteen characters, and then an operand. -/
def withOperand (mnemonic operand : String) : String :=
  Text.alignLeft 14 mnemonic ++ " " ++ operand

/-- The text of an instruction. -/
def text : Instruction → String
  | pushNull => "aconst_null"
  | iconst value => "iconst_" ++ value.toNat.repr
  | bipush value => withOperand "bipush" value.toInt.repr
  | sipush value => withOperand "sipush" value.toInt.repr
  | ldc constant => withOperand "ldc" constant.text
  | load category slot => String.singleton category.letter ++ "load " ++ slot.toNat.repr
  | getField access => withOperand "getfield" access.text
  | getStatic access => withOperand "getstatic" access.text
  | new type => withOperand "new" type
  | dup => "dup"
  | pop => "pop"
  | checkCast type => withOperand "checkcast" type
  | invoke call => withOperand call.dispatch.mnemonic call.text
  | branch condition target => withOperand condition.mnemonic target.name
  | goto target => withOperand "goto" target.name
  | arithmetic op kind => String.singleton kind.letter ++ op.mnemonic
  | compare comparator => comparator.mnemonic
  | convert source target =>
      String.singleton source.letter ++ "2" ++ String.singleton target.letter
  | newArray kind => withOperand "newarray" kind.name
  | newRefArray type => withOperand "anewarray" type
  | arrayStore kind => String.singleton kind.storeLetter ++ "astore"

end Instruction

end StackLowering
