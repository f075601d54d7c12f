/-!
Decimal numbers and their text.

* `Decimal`: a positive number `coefficient · 10 ^ exponent`.
* `Decimal.Style`: which magnitudes are written out positionally; all others
  are written with an exponent.
* `Decimal.text`: the digits laid out in a style.
-/

namespace StackLowering

/-- The number `coefficient · 10 ^ exponent`. -/
structure Decimal where
  coefficient : Nat
  exponent : Int
  deriving DecidableEq, Repr

namespace Decimal

/-- The exponents of the leading digit for which a number is written without an
exponent: from `positionalFrom` up to, and not including, `positionalBelow`. -/
structure Style where
  positionalFrom : Int
  positionalBelow : Int

/-- The digits of the coefficient up to its last digit that is not zero. -/
def digits (d : Decimal) : List Char :=
  ((Nat.toDigits 10 d.coefficient).reverse.dropWhile (· == '0')).reverse

/-- The power of ten that the leading digit counts. -/
def leadingExponent (d : Decimal) : Int :=
  d.exponent + (Nat.toDigits 10 d.coefficient).length - 1

/-- The digits with the point put where it belongs, with at least one digit on
either side of it. -/
def positional (digits : List Char) (leading : Int) : List Char :=
  if leading < 0 then
    ['0', '.'] ++ List.replicate ((-leading).toNat - 1) '0' ++ digits
  else
    let whole := leading.toNat + 1
    let fraction := digits.drop whole
    (digits.take whole).rightpad whole '0' ++ ['.']
      ++ (if fraction.isEmpty then ['0'] else fraction)

/-- One digit before the point, the others after it, and the exponent.  A single
digit stands without a point. -/
def scientific (digits : List Char) (leading : Int) : List Char :=
  let fraction := digits.drop 1
  digits.take 1 ++ (if fraction.isEmpty then [] else '.' :: fraction)
    ++ ['e'] ++ leading.repr.toList

/-- The text of a decimal in a style. -/
def text (style : Style) (d : Decimal) : List Char :=
  if style.positionalFrom ≤ d.leadingExponent ∧ d.leadingExponent < style.positionalBelow then
    positional d.digits d.leadingExponent
  else
    scientific d.digits d.leadingExponent

end Decimal

end StackLowering
