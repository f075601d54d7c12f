import StackLowering.Number.Shortest
import StackLowering.Text.Quoted

/-!
Constants that instructions load from the pool, and their text.

* `Constant.beq`: equality of constants, by kind and value.  Floating-point
  constants are told apart by their bits, so that the two zeros differ and a NaN
  equals itself; `Constant.beq_iff` says that nothing else is told apart.
* `Constant.text`: how a constant is printed.
-/

namespace StackLowering

/-- A constant of the pool. -/
inductive Constant where
  | int (value : Int32)
  | long (value : Int64)
  | float (value : Binary .single)
  | double (value : Binary .double)
  | string (value : String)
  /-- A class, by the name it has in instructions. -/
  | classRef (name : String)
  deriving Repr

namespace Constant

/-- Equality of constants of one kind; floating-point ones compare by their
bits. -/
def beq : Constant → Constant → Bool
  | int a, int b => a == b
  | long a, long b => a == b
  | float a, float b => a.bits == b.bits
  | double a, double b => a.bits == b.bits
  | string a, string b => a == b
  | classRef a, classRef b => a == b
  | _, _ => false

instance : BEq Constant := ⟨beq⟩

/-- Constants that compare equal are the same, of one kind and bit by bit. -/
theorem beq_iff {a b : Constant} : (a == b) = true ↔ a = b := by
  show beq a b = true ↔ a = b
  cases a <;> cases b <;> simp [beq, Binary.bits_inj]

instance : LawfulBEq Constant where
  eq_of_beq := beq_iff.mp
  rfl := beq_iff.mpr rfl

instance : DecidableEq Constant := fun _ _ =>
  decidable_of_iff _ beq_iff

/-- A hash takes in the kind of a constant and what it is compared by. -/
instance : Hashable Constant where
  hash
    | int value => mixHash 0 (hash value)
    | long value => mixHash 1 (hash value)
    | float value => mixHash 2 (hash value.bits)
    | double value => mixHash 3 (hash value.bits)
    | string value => mixHash 4 (hash value)
    | classRef name => mixHash 5 (hash name)

/-- Numbers from `0.0001` up to `10 ^ 16` are written without an exponent. -/
def decimalStyle : Decimal.Style where
  positionalFrom := -4
  positionalBelow := 16

/-- The text of a constant.  A suffix tells the kinds of numbers apart. -/
def text : Constant → String
  | int value => value.toInt.repr
  | long value => value.toInt.repr ++ "L"
  | float value => value.text decimalStyle ++ "F"
  | double value => value.text decimalStyle ++ "D"
  | string value => Text.quote value
  | classRef name => "class " ++ name

end Constant

end StackLowering
