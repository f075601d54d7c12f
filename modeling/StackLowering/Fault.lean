import StackLowering.Arithmetic
import StackLowering.Label.Basic
import StackLowering.Member

/-!
The reasons for which lowering stops, and their wording.

The faults from `unsupportedOperation` to `fieldAccess` concern the expression;
`arrayTooLarge` and `tooManyLabels` are limits of the format; the others concern
labels and the depth of the stack.
-/

namespace StackLowering

/-- The operations that an instruction is chosen for by type. -/
inductive Operation where
  | loadLocal
  | arithmetic (op : ArithmeticOp)
  | equality
  | ordering
  | arrayCreate
  | arrayStore
  deriving DecidableEq, Repr

/-- The printed name of an operation. -/
def Operation.name : Operation → String
  | loadLocal => "local load"
  | arithmetic .add => "addition"
  | arithmetic .subtract => "subtraction"
  | arithmetic .multiply => "multiplication"
  | equality => "equality comparison"
  | ordering => "ordering comparison"
  | arrayCreate => "array creation"
  | arrayStore => "array store"

/-- Why lowering stopped. -/
inductive Fault where
  /-- No instruction performs the operation on values of the type. -/
  | unsupportedOperation (operation : Operation) (type : Ty)
  /-- The conversion does not widen a number. -/
  | unsupportedConversion (source target : Ty)
  /-- Only reference types can be cast to. -/
  | castToPrimitive (type : Ty)
  /-- A value is wanted from a type that has none. -/
  | voidValue (type : Ty)
  /-- The call has a receiver and should not, or the other way round. -/
  | receiverMismatch (method : Method)
  /-- The call has too few or too many arguments. -/
  | argumentCount (method : Method) (found : Nat)
  /-- A static field is read from an object, or the other way round. -/
  | fieldAccess (field : Field)
  /-- The number of elements does not fit the format. -/
  | arrayTooLarge (length : Nat)
  /-- The numbers for labels are used up. -/
  | tooManyLabels
  /-- A label has two positions. -/
  | labelPlacedTwice (label : Label)
  /-- A label has no position, or does not exist. -/
  | labelUnplaced (label : Label)
  /-- Two depths of the stack that should agree differ. -/
  | stackImbalance (expected actual : Nat)
  deriving DecidableEq, Repr

namespace Fault

/-- The wording of a fault. -/
def message : Fault → String
  | unsupportedOperation operation type =>
      "cannot apply " ++ operation.name ++ " to values of type " ++ type.display
  | unsupportedConversion source target =>
      "no widening conversion from " ++ source.display ++ " to " ++ target.display
  | castToPrimitive type => "cannot cast to primitive type " ++ type.display
  | voidValue type => "type " ++ type.display ++ " has no values"
  | receiverMismatch method =>
      method.dispatch.name ++ " method " ++ method.display ++ " cannot be called this way"
  | argumentCount method found =>
      method.display ++ " takes " ++ method.parameters.length.repr ++ " argument(s) but "
        ++ found.repr ++ " were supplied"
  | fieldAccess field =>
      (if field.isStatic then "static" else "instance") ++ " field " ++ field.display
        ++ " cannot be read this way"
  | arrayTooLarge length => "array of " ++ length.repr ++ " elements is too large"
  | tooManyLabels => "too many labels in one compilation unit"
  | labelPlacedTwice label => "label " ++ label.name ++ " placed twice"
  | labelUnplaced label => "label " ++ label.name ++ " was never placed"
  | stackImbalance expected actual =>
      "stack imbalance: expected depth " ++ expected.repr ++ ", found " ++ actual.repr

end Fault

end StackLowering
