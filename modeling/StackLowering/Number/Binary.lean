/-!
Binary floating-point data, held as bit patterns.

* `BinaryFormat`: how many bits encode the exponent and the fraction;
  `BinaryFormat.single` and `BinaryFormat.double` are the two in use.
* `Binary`: a datum of a format.  Equality of data is equality of bits, so that
  the two zeros differ and a NaN equals itself.
* `Binary.numericEq`: equality of the numbers meant, under which the zeros agree
  and no NaN equals anything.
* `Binary.significand`, `Binary.exponent`: a finite datum has the magnitude
  `significand · 2 ^ exponent`.
-/

namespace StackLowering

/-- The layout of a binary interchange format: one sign bit, then the exponent
field, then the fraction field. -/
structure BinaryFormat where
  exponentBits : Nat
  fractionBits : Nat

namespace BinaryFormat

/-- The number of bits of a datum. -/
abbrev width (f : BinaryFormat) : Nat :=
  1 + f.exponentBits + f.fractionBits

/-- Single precision, 32 bits. -/
abbrev single : BinaryFormat := ⟨8, 23⟩

/-- Double precision, 64 bits. -/
abbrev double : BinaryFormat := ⟨11, 52⟩

end BinaryFormat

/-- A datum of a binary format, by its bits. -/
structure Binary (f : BinaryFormat) where
  bits : BitVec f.width
  deriving DecidableEq, Repr

namespace Binary

variable {f : BinaryFormat}

/-- Data with the same bits are the same. -/
theorem bits_inj {x y : Binary f} : x.bits = y.bits ↔ x = y := by
  cases x
  cases y
  simp

/-- Whether the sign bit is set. -/
def isNegative (x : Binary f) : Bool :=
  x.bits.msb

/-- The exponent field as it is stored. -/
def exponentField (x : Binary f) : Nat :=
  x.bits.toNat / Nat.pow 2 f.fractionBits % Nat.pow 2 f.exponentBits

/-- The fraction field. -/
def fraction (x : Binary f) : Nat :=
  x.bits.toNat % Nat.pow 2 f.fractionBits

/-- Whether the exponent field is all ones, which marks infinities and NaNs. -/
def isSpecial (x : Binary f) : Bool :=
  x.exponentField == Nat.pow 2 f.exponentBits - 1

/-- Whether the datum is not a number. -/
def isNaN (x : Binary f) : Bool :=
  x.isSpecial && x.fraction != 0

/-- Whether the datum is one of the two zeros. -/
def isZero (x : Binary f) : Bool :=
  x.exponentField == 0 && x.fraction == 0

/-- The significand of a finite datum, with the leading bit that normal data
leave unstored. -/
def significand (x : Binary f) : Nat :=
  if x.exponentField = 0 then x.fraction else Nat.pow 2 f.fractionBits + x.fraction

/-- The exponent that belongs to `significand`.  Subnormal data share the
exponent of the smallest normal ones. -/
def exponent (x : Binary f) : Int :=
  (max x.exponentField 1 : Nat) - (Nat.pow 2 (f.exponentBits - 1) - 1 : Nat) - f.fractionBits

/-- Whether the next datum toward zero is only half as far away as the next one
on the other side, as below a power of two. -/
def hasNarrowGap (x : Binary f) : Bool :=
  x.fraction == 0 && decide (1 < x.exponentField)

/-- Equality of the numbers that two data stand for. -/
def numericEq (x y : Binary f) : Bool :=
  !x.isNaN && !y.isNaN && (x == y || (x.isZero && y.isZero))

/-- A datum is equal to itself as a number unless it is none. -/
theorem numericEq_self (x : Binary f) : x.numericEq x = !x.isNaN := by
  simp [numericEq]

/-- Numeric equality does not depend on the order of the data. -/
theorem numericEq_comm (x y : Binary f) : x.numericEq y = y.numericEq x := by
  rw [numericEq, numericEq, Bool.and_comm (!x.isNaN), Bool.and_comm x.isZero, BEq.comm]

end Binary

end StackLowering
