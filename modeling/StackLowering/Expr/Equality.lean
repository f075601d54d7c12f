import StackLowering.Expr.Basic

/-!
Equality of expression trees: the same shape with the same parts, where
floating-point literals are compared as numbers.  The two zeros are equal, and
a tree with a NaN in it is not equal to itself.
-/

namespace StackLowering

namespace Literal

/-- Equality of literals of one kind; floating-point ones compare as numbers. -/
def beq : Literal → Literal → Bool
  | null, null => true
  | bool a, bool b => a == b
  | byte a, byte b => a == b
  | short a, short b => a == b
  | char a, char b => a == b
  | int a, int b => a == b
  | long a, long b => a == b
  | float a, float b => a.numericEq b
  | double a, double b => a.numericEq b
  | string a, string b => a == b
  | classOf a, classOf b => a == b
  | _, _ => false

instance : BEq Literal := ⟨beq⟩

end Literal

namespace Expr

mutual

/-- Equality of trees, node by node. -/
def beq : Expr → Expr → Bool
  | literal a, literal b => a == b
  | load a, load b => a == b
  | receiver, receiver => true
  | getField t f, getField t' f' => beq t t' && f == f'
  | getStatic f, getStatic f' => f == f'
  | newInstance m as, newInstance m' as' => m == m' && beqList as as'
  | invoke t m as, invoke t' m' as' => beq t t' && m == m' && beqList as as'
  | invokeStatic m as, invokeStatic m' as' => m == m' && beqList as as'
  | not e, not e' => beq e e'
  | or l r, or l' r' => beq l l' && beq r r'
  | conditional c t e, conditional c' t' e' => beq c c' && beq t t' && beq e e'
  | eq l r ty, eq l' r' ty' => beq l l' && beq r r' && ty == ty'
  | gt l r ty, gt l' r' ty' => beq l l' && beq r r' && ty == ty'
  | arithmetic op l r ty, arithmetic op' l' r' ty' =>
      op == op' && beq l l' && beq r r' && ty == ty'
  | widen e s t, widen e' s' t' => beq e e' && s == s' && t == t'
  | cast ty e, cast ty' e' => ty == ty' && beq e e'
  | newArray ty es, newArray ty' es' => ty == ty' && beqList es es'
  | pop e, pop e' => beq e e'
  | _, _ => false

/-- Equality of lists of trees, position by position. -/
def beqList : List Expr → List Expr → Bool
  | [], [] => true
  | e :: es, e' :: es' => beq e e' && beqList es es'
  | _, _ => false

end

instance : BEq Expr := ⟨beq⟩

end Expr

end StackLowering
