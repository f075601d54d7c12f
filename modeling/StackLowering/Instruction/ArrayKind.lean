import StackLowering.Type.Primitive

/-!
Kinds of arrays.  Unlike categories they keep the narrow integer types apart:
an array of bytes is not an array of integers, although both hold values that
are computed with as integers.
-/

namespace StackLowering

/-- What an array holds, as far as its allocation and its stores go. -/
inductive ArrayKind where
  | boolean
  | char
  | float
  | double
  | byte
  | short
  | int
  | long
  | reference
  deriving DecidableEq, Repr

namespace ArrayKind

/-- The kind of an array of a built-in type; there are no arrays of `void`. -/
def ofPrimitive? : Primitive → Option ArrayKind
  | .boolean => some boolean
  | .byte => some byte
  | .short => some short
  | .char => some char
  | .int => some int
  | .long => some long
  | .float => some float
  | .double => some double
  | .void => none

/-- The code of the element type in an allocation.  Arrays of references name
their element type instead. -/
def typeCode? : ArrayKind → Option Nat
  | boolean => some 4
  | char => some 5
  | float => some 6
  | double => some 7
  | byte => some 8
  | short => some 9
  | int => some 10
  | long => some 11
  | reference => none

/-- The name of the element type. -/
def name : ArrayKind → String
  | boolean => "boolean"
  | char => "char"
  | float => "float"
  | double => "double"
  | byte => "byte"
  | short => "short"
  | int => "int"
  | long => "long"
  | reference => "reference"

/-- The kind of an array of a built-in type is the one with the name of the
type; references have a kind that no built-in type has. -/
theorem ofPrimitive?_eq_some_iff {p : Primitive} {k : ArrayKind} :
    ofPrimitive? p = some k ↔ k.name = p.name := by
  cases p <;> cases k <;> decide

/-- The letter of the store instruction, which booleans and bytes share. -/
def storeLetter : ArrayKind → Char
  | boolean | byte => 'b'
  | char => 'c'
  | short => 's'
  | int => 'i'
  | long => 'l'
  | float => 'f'
  | double => 'd'
  | reference => 'a'

end ArrayKind

end StackLowering
