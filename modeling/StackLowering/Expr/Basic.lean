import StackLowering.Arithmetic
import StackLowering.Member
import StackLowering.Number.Binary

/-!
Typed expression trees.

* `Literal`: the constants an expression may hold.
* `Expr`: the trees.  Each node carries the types that decide which
  instructions it becomes; the trees are not assumed to be well typed.
* `Expr.hasValue`: whether evaluating a tree leaves a value.
* `Expr.voidType`: the type that a tree without value is reported with.
-/

namespace StackLowering

/-- A constant in an expression. -/
inductive Literal where
  | null
  | bool (value : Bool)
  | byte (value : Int8)
  | short (value : Int16)
  | char (value : UInt16)
  | int (value : Int32)
  | long (value : Int64)
  | float (value : Binary .single)
  | double (value : Binary .double)
  | string (value : String)
  /-- The class object of a type. -/
  | classOf (type : Ty)
  deriving Repr

/-- An expression tree. -/
inductive Expr where
  | literal (value : Literal)
  /-- The value of a local variable. -/
  | load (source : Local)
  /-- The object whose method is running, in slot 0. -/
  | receiver
  | getField (target : Expr) (field : Field)
  | getStatic (field : Field)
  /-- Allocation of an object and the call of its constructor. -/
  | newInstance (constructor : Method) (arguments : List Expr)
  /-- A call on a receiver, or of a constructor on an object that exists. -/
  | invoke (target : Expr) (method : Method) (arguments : List Expr)
  | invokeStatic (method : Method) (arguments : List Expr)
  /-- Negation of a truth value. -/
  | not (operand : Expr)
  /-- Disjunction; the right side counts only if the left one is false. -/
  | or (lhs rhs : Expr)
  /-- The value of one arm, chosen by the test. -/
  | conditional (test onTrue onFalse : Expr)
  /-- Equality of two values of a type. -/
  | eq (lhs rhs : Expr) (type : Ty)
  /-- Whether the left value of a type exceeds the right one. -/
  | gt (lhs rhs : Expr) (type : Ty)
  | arithmetic (op : ArithmeticOp) (lhs rhs : Expr) (type : Ty)
  /-- Conversion to a numeric type that is at least as wide. -/
  | widen (operand : Expr) (source target : Ty)
  /-- A checked cast between reference types. -/
  | cast (target : Ty) (operand : Expr)
  /-- A new array with the given elements. -/
  | newArray (element : Ty) (elements : List Expr)
  /-- Evaluation for the effect alone. -/
  | pop (operand : Expr)
  deriving Repr

namespace Expr

/-- Whether evaluation leaves a value.  Discarding leaves none, a call leaves
one unless its method returns nothing, and a conditional follows its first
arm. -/
def hasValue : Expr → Bool
  | pop _ => false
  | conditional _ onTrue _ => onTrue.hasValue
  | invoke _ method _ | invokeStatic method _ => method.returnsValue
  | _ => true

/-- The number of values that evaluation leaves. -/
def stackEffect (e : Expr) : Nat :=
  e.hasValue.toNat

/-- The type to report when a value is wanted from a tree that has none: what
the call at its end returns. -/
def voidType : Expr → Ty
  | invoke _ method _ | invokeStatic method _ => method.returns
  | conditional _ onTrue _ => onTrue.voidType
  | _ => .void

/-- A tree without value is reported with `void`. -/
theorem isVoid_voidType {e : Expr} (h : e.hasValue = false) : e.voidType.isVoid = true := by
  fun_induction voidType e <;> simp_all [hasValue, Method.returnsValue, Ty.isVoid, Ty.void,
    Ty.ofPrimitive]

end Expr

end StackLowering
