/-!
The arithmetic operations on two numbers of one kind.
-/

namespace StackLowering

/-- An arithmetic operation with two operands. -/
inductive ArithmeticOp where
  | add
  | subtract
  | multiply
  deriving DecidableEq, Repr

/-- What follows the letter of the operand kind in a mnemonic. -/
def ArithmeticOp.mnemonic : ArithmeticOp → String
  | add => "add"
  | subtract => "sub"
  | multiply => "mul"

end StackLowering
