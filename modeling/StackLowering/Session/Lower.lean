import StackLowering.Selection
import StackLowering.Session.Basic
import StackLowering.Session.Literal

/-!
From expression trees to instructions.

Each node first makes its choices, so that a node that is refused has emitted
nothing.  Then come its operands from left to right, and last its own
instructions.

* `Lowering.truth`: the pattern shared by negation and comparison, which turns
  a branch into the value 0 or 1.
* `Expr.lower`: the instructions of a tree.
* `Expr.lowerArguments`, `Expr.lowerElements`: the instructions of a list of
  arguments, and of array elements with their stores.
-/

namespace StackLowering

namespace Lowering

variable {σ : Type} [Sink σ]

/-- The code of an operand, whose value is wanted. -/
def valueOf (e : Expr) (code : Lowering σ Unit) : Lowering σ Unit := do
  require (Selection.value e)
  code

/-- Pushes an integer. -/
def pushInt (config : Config) (n : Nat) : Lowering σ Unit :=
  emit (.pushInt config.options.compactConstants (.ofNat n))

/-- The end of a construct whose code has arrived at its result: pushes 1 for
the path reached and 0 for the path that jumps to `onFalse`, and joins the
two. -/
def joinTruth (onFalse : Label) : Lowering σ Unit := do
  emit (.iconst 1)
  let done ← newLabel
  goto done
  place onFalse
  emit (.iconst 0)
  place done

/-- Pushes 0 if the branch on the operands at the top is taken, and 1
otherwise. -/
def truth (jumpIfFalse : Condition) : Lowering σ Unit := do
  let onFalse ← newLabel
  branch jumpIfFalse onFalse
  joinTruth onFalse

/-- The comparison of the two topmost values. -/
def decideBy (comparison : Selection.Comparison) : Lowering σ Unit := do
  match comparison.reduce with
  | some comparator => emit (.compare comparator)
  | none => pure ()
  truth comparison.jumpIfFalse

end Lowering

namespace Expr

open Lowering

variable {σ : Type} [Sink σ]

mutual

/-- Emits the instructions that evaluate a tree. -/
def lower (config : Config) : Expr → Lowering σ Unit
  | literal value => emit (value.push config)
  | load source => do
      emit (← require (Selection.load source))
  | receiver => emit (.load .reference 0)
  | getField target field => do
      let access ← require (Selection.fieldAccess config.naming field true)
      valueOf target (lower config target)
      emit (.getField access)
  | getStatic field => do
      let access ← require (Selection.fieldAccess config.naming field false)
      emit (.getStatic access)
  | newInstance constructor arguments => do
      let call ← require (Selection.construction config.naming constructor arguments.length)
      emit (.new call.owner)
      emit .dup
      lowerArguments config arguments
      emit (.invoke call)
  | invoke target method arguments => do
      let call ← require (Selection.call config.naming method true arguments.length)
      valueOf target (lower config target)
      lowerArguments config arguments
      emit (.invoke call)
  | invokeStatic method arguments => do
      let call ← require (Selection.call config.naming method false arguments.length)
      lowerArguments config arguments
      emit (.invoke call)
  | not operand => do
      valueOf operand (lower config operand)
      truth (.zero .ne)
  | or lhs rhs => do
      valueOf lhs (lower config lhs)
      let onTrue ← newLabel
      branch (.zero .ne) onTrue
      valueOf rhs (lower config rhs)
      let onFalse ← newLabel
      branch (.zero .eq) onFalse
      place onTrue
      joinTruth onFalse
  | conditional test onTrue onFalse => do
      require (Selection.arms onTrue onFalse)
      valueOf test (lower config test)
      let otherwise ← newLabel
      branch (.zero .eq) otherwise
      lower config onTrue
      let done ← newLabel
      goto done
      place otherwise
      lower config onFalse
      place done
  | eq lhs rhs type => do
      let comparison ← require (Selection.equality type)
      valueOf lhs (lower config lhs)
      valueOf rhs (lower config rhs)
      decideBy comparison
  | gt lhs rhs type => do
      let comparison ← require (Selection.ordering type)
      valueOf lhs (lower config lhs)
      valueOf rhs (lower config rhs)
      decideBy comparison
  | arithmetic op lhs rhs type => do
      let instruction ← require (Selection.arithmetic op type)
      valueOf lhs (lower config lhs)
      valueOf rhs (lower config rhs)
      emit instruction
  | widen operand source target => do
      let conversion ← require (Selection.widening source target)
      valueOf operand (lower config operand)
      match conversion with
      | some instruction => emit instruction
      | none => pure ()
  | cast target operand => do
      let instruction ← require (Selection.cast config.naming target)
      valueOf operand (lower config operand)
      emit instruction
  | newArray element elements => do
      let allocation ← require (Selection.newArray config.naming element)
      let store ← require (Selection.arrayStore element)
      let length ← require (Selection.arrayLength elements)
      pushInt config length
      emit allocation
      lowerElements config store 0 elements
  | pop operand => do
      valueOf operand (lower config operand)
      emit .pop

/-- Emits the instructions of arguments, from left to right. -/
def lowerArguments (config : Config) : List Expr → Lowering σ Unit
  | [] => pure ()
  | e :: es => do
      valueOf e (lower config e)
      lowerArguments config es

/-- Emits, for each element of an array, the instructions that evaluate it and
store it at its index; `index` is the one of the first element given. -/
def lowerElements (config : Config) (store : Instruction) (index : Nat) :
    List Expr → Lowering σ Unit
  | [] => pure ()
  | e :: es => do
      emit .dup
      pushInt config index
      valueOf e (lower config e)
      emit store
      lowerElements config store (index + 1) es

end

end Expr

end StackLowering
