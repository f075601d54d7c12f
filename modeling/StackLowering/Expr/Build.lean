import StackLowering.Expr.Basic

/-!
Shorthands for common expressions, with their operand types filled in.
-/

namespace StackLowering.Expr

/-- Sum of two values of a type. -/
def add (lhs rhs : Expr) (type : Ty) : Expr :=
  arithmetic .add lhs rhs type

/-- Difference of two values of a type. -/
def subtract (lhs rhs : Expr) (type : Ty) : Expr :=
  arithmetic .subtract lhs rhs type

/-- Product of two values of a type. -/
def multiply (lhs rhs : Expr) (type : Ty) : Expr :=
  arithmetic .multiply lhs rhs type

/-- Sum of two values of a built-in type. -/
def addOf (kind : Primitive) (lhs rhs : Expr) : Expr :=
  add lhs rhs (.ofPrimitive kind)

/-- Difference of two values of a built-in type. -/
def subtractOf (kind : Primitive) (lhs rhs : Expr) : Expr :=
  subtract lhs rhs (.ofPrimitive kind)

/-- Product of two values of a built-in type. -/
def multiplyOf (kind : Primitive) (lhs rhs : Expr) : Expr :=
  multiply lhs rhs (.ofPrimitive kind)

/-- Conversion from `long` to `double`. -/
def longToDouble (operand : Expr) : Expr :=
  widen operand (.ofPrimitive .long) (.ofPrimitive .double)

end StackLowering.Expr
