/-!
The built-in types and the classes of values that the machine tells apart.

* `Primitive`: the eight built-in value types and `void`, in their customary
  order; `Primitive.category` is `none` for `void` alone.
* `Category`: what a stack slot or a local may hold, as far as the choice of an
  instruction depends on it.
* `Numeric`: the categories with arithmetic, from narrow to wide;
  `Numeric.category` and `Category.numeric` pass between the two.
-/

namespace StackLowering

/-- The built-in types.  `void` stands only where a method returns nothing. -/
inductive Primitive where
  | boolean
  | byte
  | short
  | char
  | int
  | long
  | float
  | double
  | void
  deriving DecidableEq, Ord, Repr

/-- The classes of values the instruction set distinguishes.  Everything
narrower than an `int` is computed with as an `int`. -/
inductive Category where
  | int
  | long
  | float
  | double
  | reference
  deriving DecidableEq, Ord, Repr

/-- The categories with arithmetic.  The declared order is the direction of
widening. -/
inductive Numeric where
  | int
  | long
  | float
  | double
  deriving DecidableEq, Ord, Repr

namespace Numeric

/-- The category of the values of a numeric kind. -/
def category : Numeric → Category
  | int => .int
  | long => .long
  | float => .float
  | double => .double

/-- The name of a numeric kind as it is printed. -/
def name : Numeric → String
  | int => "int"
  | long => "long"
  | float => "float"
  | double => "double"

/-- The letter that mnemonics begin with for operands of this kind. -/
def letter : Numeric → Char
  | int => 'i'
  | long => 'l'
  | float => 'f'
  | double => 'd'

end Numeric

namespace Category

/-- The numeric kind of a category; references have none. -/
def numeric : Category → Option Numeric
  | int => some .int
  | long => some .long
  | float => some .float
  | double => some .double
  | reference => none

/-- The name of a category as it is printed. -/
def name : Category → String
  | int => "int"
  | long => "long"
  | float => "float"
  | double => "double"
  | reference => "reference"

/-- The letter that mnemonics begin with for operands of this category. -/
def letter : Category → Char
  | int => 'i'
  | long => 'l'
  | float => 'f'
  | double => 'd'
  | reference => 'a'

/-- A category has a numeric kind exactly when it is the category of one. -/
theorem numeric_eq_some_iff {c : Category} {n : Numeric} :
    c.numeric = some n ↔ n.category = c := by
  cases c <;> cases n <;> decide

end Category

namespace Primitive

/-- The keyword that names a built-in type. -/
def name : Primitive → String
  | boolean => "boolean"
  | byte => "byte"
  | short => "short"
  | char => "char"
  | int => "int"
  | long => "long"
  | float => "float"
  | double => "double"
  | void => "void"

/-- The letter that stands for a built-in type in a descriptor. -/
def letter : Primitive → Char
  | boolean => 'Z'
  | byte => 'B'
  | short => 'S'
  | char => 'C'
  | int => 'I'
  | long => 'J'
  | float => 'F'
  | double => 'D'
  | void => 'V'

/-- The category of the values of a built-in type; `void` has no values. -/
def category : Primitive → Option Category
  | boolean | byte | short | char | int => some .int
  | long => some .long
  | float => some .float
  | double => some .double
  | void => none

/-- Only `void` is without values. -/
theorem category_eq_none_iff {p : Primitive} : p.category = none ↔ p = void := by
  cases p <;> decide

end Primitive

end StackLowering
