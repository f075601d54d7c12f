import StackLowering.Proofs.Machine
import StackLowering.Session.Literal

/-!
The meaning of expression trees.

* `Interpretation.eval`: evaluation of a tree, node by node and from left to right,
  without instructions.
* `Interpretation.evalArguments`, `Interpretation.evalElements`: the arguments of a
  call, and the elements of an array with their stores.
-/

namespace StackLowering

/-- A field as instructions name it. -/
def Naming.access (naming : Naming) (field : Field) : FieldAccess :=
  ⟨naming.internalName field.owner, field.name, naming.fieldDescriptor field⟩

/-- A method as instructions name it. -/
def Naming.call (naming : Naming) (method : Method) : Call :=
  ⟨method.dispatch, naming.internalName method.owner, method.name,
    naming.methodDescriptor method, method.parameters.length, method.returnsValue⟩

/-- The kind of an array with elements of a type; there are no arrays of `void`. -/
def Ty.arrayKind? (element : Ty) : Option ArrayKind :=
  match element.primitive? with
  | none => some .reference
  | some kind => ArrayKind.ofPrimitive? kind

/-- The numeric kind of a type. -/
def Ty.numeric? (type : Ty) : Option Numeric :=
  type.category.bind Category.numeric

namespace Interpretation

variable {V W E : Type} (I : Interpretation V W E) (naming : Naming)

/-- The integer for a truth value. -/
def truth (b : Bool) : V :=
  I.int (if b then 1 else 0)

/-- The value of a computation that has to give one. -/
def value (m : EStateM E W (Option V)) : EStateM E W V := do
  match ← m with
  | some v => pure v
  | none => throw I.stuck

/-- The value of a literal. -/
def literal : Literal → EStateM E W V
  | .null => pure I.null
  | .bool value => pure (I.truth value)
  | .byte value => pure (I.int value.toInt32)
  | .short value => pure (I.int value.toInt32)
  | .char value => pure (I.int (.ofNat value.toNat))
  | .int value => pure (I.int value)
  | .long value => I.constant (.long value)
  | .float value => I.constant (.float value)
  | .double value => I.constant (.double value)
  | .string value => I.constant (.string value)
  | .classOf type =>
      match type.primitive? with
      | some kind => I.getStatic ⟨kind.wrapper, "TYPE", "Ljava/lang/Class;"⟩
      | none => I.constant (.classRef (naming.internalName type))

/-- Whether two values of a category are equal. -/
def equal (a b : V) : Option Category → EStateM E W Bool
  | some .int => return (← I.toInt a) == (← I.toInt b)
  | some .long => return (← I.compare .long a b) == some .eq
  | some .float => return (← I.compare .float a b) == some .eq
  | some .double => return (← I.compare .double a b) == some .eq
  | some .reference => I.same a b
  | none => throw I.stuck

/-- Whether a number of some kind exceeds another one. -/
def exceeds (a b : V) : Option Numeric → EStateM E W Bool
  | some .int => return (← I.toInt a) > (← I.toInt b)
  | some .long => return (← I.compare .long a b) == some .gt
  | some .float => return (← I.compare .float a b) == some .gt
  | some .double => return (← I.compare .double a b) == some .gt
  | none => throw I.stuck

/-- A number converted from one kind to another. -/
def widened (v : V) : Option Numeric → Option Numeric → EStateM E W V
  | some source, some target => if source = target then pure v else I.convert source target v
  | _, _ => throw I.stuck

/-- A new array. -/
def allocate (element : Ty) (kind : ArrayKind) (length : Int32) : EStateM E W V :=
  if kind = .reference then I.newRefArray (naming.internalName element) length
  else I.newArray kind length

mutual

/-- The evaluation of a tree, with its value if it has one. -/
def eval : Expr → EStateM E W (Option V)
  | .literal value => some <$> I.literal naming value
  | .load source =>
      match source.type.category with
      | some category => some <$> I.load category source.slot
      | none => throw I.stuck
  | .receiver => some <$> I.load .reference 0
  | .getField target field => do
      let object ← I.value (eval target)
      some <$> I.getField (naming.access field) object
  | .getStatic field => some <$> I.getStatic (naming.access field)
  | .newInstance constructor arguments => do
      let object ← I.new (naming.internalName constructor.owner)
      let operands ← evalArguments arguments
      let _ ← I.invoke (naming.call constructor) (object :: operands)
      return some object
  | .invoke target method arguments => do
      let object ← I.value (eval target)
      let operands ← evalArguments arguments
      I.invoke (naming.call method) (object :: operands)
  | .invokeStatic method arguments => do
      let operands ← evalArguments arguments
      I.invoke (naming.call method) operands
  | .not operand => do
      let n ← I.toInt (← I.value (eval operand))
      return some (I.truth (n == 0))
  | .or lhs rhs => do
      let m ← I.toInt (← I.value (eval lhs))
      if m = 0 then
        let n ← I.toInt (← I.value (eval rhs))
        return some (I.truth (n != 0))
      else
        return some (I.truth true)
  | .conditional test onTrue onFalse => do
      let n ← I.toInt (← I.value (eval test))
      if n = 0 then eval onFalse else eval onTrue
  | .eq lhs rhs type => do
      let a ← I.value (eval lhs)
      let b ← I.value (eval rhs)
      return some (I.truth (← I.equal a b type.category))
  | .gt lhs rhs type => do
      let a ← I.value (eval lhs)
      let b ← I.value (eval rhs)
      return some (I.truth (← I.exceeds a b type.numeric?))
  | .arithmetic op lhs rhs type => do
      let a ← I.value (eval lhs)
      let b ← I.value (eval rhs)
      match type.numeric? with
      | some kind => some <$> I.arithmetic op kind a b
      | none => throw I.stuck
  | .widen operand source target => do
      let v ← I.value (eval operand)
      some <$> I.widened v source.numeric? target.numeric?
  | .cast target operand => do
      let v ← I.value (eval operand)
      some <$> I.checkCast (naming.internalName target) v
  | .newArray element elements =>
      match element.arrayKind? with
      | some kind => do
          let array ← I.allocate naming element kind (.ofNat elements.length)
          evalElements kind array 0 elements
          return some array
      | none => throw I.stuck
  | .pop operand => do
      let _ ← I.value (eval operand)
      return none

/-- The evaluation of arguments, from left to right. -/
def evalArguments : List Expr → EStateM E W (List V)
  | [] => pure []
  | e :: es => do
      let v ← I.value (eval e)
      let vs ← evalArguments es
      return v :: vs

/-- The evaluation of the elements of an array, each with its store; `index` is that
of the first. -/
def evalElements (kind : ArrayKind) (array : V) (index : Nat) : List Expr → EStateM E W Unit
  | [] => pure ()
  | e :: es => do
      let v ← I.value (eval e)
      I.store kind array (.ofNat index) v
      evalElements kind array (index + 1) es

end

end Interpretation

end StackLowering
