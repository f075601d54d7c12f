import StackLowering.Expr.Basic
import StackLowering.Fault
import StackLowering.Instruction.Basic
import StackLowering.Naming

/-!
The choice of instructions by type.  Nothing here emits code, so that a node can
be refused before any of it is written.

* `Selection.category`, `Selection.numeric`: the category of a type, and its
  numeric kind where an operation asks for one.
* `Selection.load`, `Selection.arithmetic`, `Selection.newArray`,
  `Selection.arrayStore`, `Selection.widening`: the instruction for an operation.
* `Selection.equality`, `Selection.ordering`: how a comparison becomes a branch.
* `Selection.fieldAccess`, `Selection.call`, `Selection.construction`: how a
  member is named, once it is used in a way that it allows.
-/

namespace StackLowering.Selection

/-- The category of the values of a type. -/
def category (type : Ty) : Except Fault Category :=
  match type.category with
  | some c => .ok c
  | none => .error (.voidValue type)

/-- The numeric kind of a type that an operation needs numbers of. -/
def numeric (operation : Operation) (type : Ty) : Except Fault Numeric := do
  match (← category type).numeric with
  | some n => .ok n
  | none => .error (.unsupportedOperation operation type)

/-- The load of a local variable. -/
def load (source : Local) : Except Fault Instruction := do
  return .load (← category source.type) source.slot

/-- Arithmetic on numbers of a type. -/
def arithmetic (op : ArithmeticOp) (type : Ty) : Except Fault Instruction := do
  return .arithmetic op (← numeric (.arithmetic op) type)

/-- How two values are compared: an instruction that first reduces them to -1, 0
or 1, if they need one, and the condition of the branch that is taken if the
comparison does not hold. -/
structure Comparison where
  reduce : Option Comparator
  jumpIfFalse : Condition
  deriving DecidableEq, Repr

/-- The comparison for equality of two values of a type. -/
def equality (type : Ty) : Except Fault Comparison := do
  return match ← category type with
    | .int => ⟨none, .ints .ne⟩
    | .reference => ⟨none, .distinct⟩
    | .long => ⟨some .long, .zero .ne⟩
    | .float => ⟨some .float, .zero .ne⟩
    | .double => ⟨some .double, .zero .ne⟩

/-- The comparison for the left value exceeding the right one.  References are
not ordered. -/
def ordering (type : Ty) : Except Fault Comparison := do
  return match ← numeric .ordering type with
    | .int => ⟨none, .ints .le⟩
    | .long => ⟨some .long, .zero .le⟩
    | .float => ⟨some .float, .zero .le⟩
    | .double => ⟨some .double, .zero .le⟩

/-- The kind of an array with elements of a type. -/
def arrayKind (element : Ty) : Except Fault ArrayKind :=
  match element.primitive? with
  | none => .ok .reference
  | some kind =>
      match ArrayKind.ofPrimitive? kind with
      | some k => .ok k
      | none => .error (.voidValue element)

/-- The allocation of an array with elements of a type. -/
def newArray (naming : Naming) (element : Ty) : Except Fault Instruction := do
  return match ← arrayKind element with
    | .reference => .newRefArray (naming.internalName element)
    | kind => .newArray kind

/-- The store of an element into an array. -/
def arrayStore (element : Ty) : Except Fault Instruction := do
  return .arrayStore (← arrayKind element)

/-- The pairs of numeric kinds between which numbers are widened. -/
def converts : Numeric → Numeric → Bool
  | .int, .long | .int, .float | .int, .double => true
  | .long, .float | .long, .double => true
  | .float, .double => true
  | _, _ => false

/-- The conversion that widens a number from one type to another.  Types of one
category need no instruction. -/
def widening (source target : Ty) : Except Fault (Option Instruction) := do
  let some s := (← category source).numeric
    | throw (.unsupportedConversion source target)
  let some t := (← category target).numeric
    | throw (.unsupportedConversion source target)
  if s = t then
    return none
  else if converts s t then
    return some (.convert s t)
  else
    throw (.unsupportedConversion source target)

/-- The cast to a reference type. -/
def cast (naming : Naming) (target : Ty) : Except Fault Instruction :=
  if target.isPrimitive then .error (.castToPrimitive target)
  else .ok (.checkCast (naming.internalName target))

/-- The field to read.  Static fields are read without an object and all others
from one. -/
def fieldAccess (naming : Naming) (field : Field) (onObject : Bool) :
    Except Fault FieldAccess := do
  if field.isStatic = onObject then
    throw (.fieldAccess field)
  let _ ← category field.type
  return {
    owner := naming.internalName field.owner
    name := field.name
    descriptor := naming.fieldDescriptor field }

/-- A method has to be given as many arguments as it has parameters. -/
def checkArguments (method : Method) (arguments : Nat) : Except Fault Unit :=
  if arguments = method.parameters.length then .ok ()
  else .error (.argumentCount method arguments)

/-- The call of a method with a number of arguments. -/
def callWith (naming : Naming) (method : Method) (arguments : Nat) : Except Fault Call := do
  checkArguments method arguments
  return {
    dispatch := method.dispatch
    owner := naming.internalName method.owner
    name := method.name
    descriptor := naming.methodDescriptor method
    arguments := method.parameters.length
    returnsValue := method.returnsValue }

/-- The call of a method.  Static methods are called without an object and all
others on one. -/
def call (naming : Naming) (method : Method) (onObject : Bool) (arguments : Nat) :
    Except Fault Call :=
  if method.dispatch.hasReceiver = onObject then callWith naming method arguments
  else .error (.receiverMismatch method)

/-- The call of the constructor of a new object. -/
def construction (naming : Naming) (method : Method) (arguments : Nat) : Except Fault Call :=
  if method.dispatch = .constructor then callWith naming method arguments
  else .error (.receiverMismatch method)

/-- A tree whose value is wanted has to have one. -/
def value (e : Expr) : Except Fault Unit :=
  if e.hasValue then .ok () else .error (.voidValue e.voidType)

/-- The arms of a conditional have to agree on leaving a value.  If they do not,
the arm without one is to blame. -/
def arms (onTrue onFalse : Expr) : Except Fault Unit :=
  match onTrue.hasValue, onFalse.hasValue with
  | true, false => .error (.voidValue onFalse.voidType)
  | false, true => .error (.voidValue onTrue.voidType)
  | _, _ => .ok ()

/-- The numbers of elements that an array can have lie below this. -/
def lengthLimit : Nat := Nat.pow 2 31

/-- The number of elements of an array, if it is not too large. -/
def arrayLength (elements : List Expr) : Except Fault Nat :=
  if elements.length < lengthLimit then .ok elements.length
  else .error (.arrayTooLarge elements.length)

end StackLowering.Selection
