import StackLowering.Number.Binary
import StackLowering.Number.Decimal

/-!
The shortest decimal that reads back as a given binary datum.

Reading rounds to the nearest datum, so a datum is read from every decimal in an
interval around its value.  Among the decimals with the fewest digits in that
interval the one nearest to the value is taken.

* `Neighbourhood`: a value and its interval, as natural numbers over a common
  power of ten, so that all tests are exact.
* `Neighbourhood.nearest?`: the multiple of a grid nearest to the value, if the
  interval holds one.  One of the two grid points next to the value is in the
  interval as soon as any grid point is.
* `Neighbourhood.shortest`: the search from coarse to fine grids.
* `Binary.shortest`: the result for a finite, nonzero datum.
-/

namespace StackLowering

/-- The number `value · 10 ^ exponent` and the interval of numbers that round
to it.  The bounds are in quarters of the unit of `value`; they belong to the
interval when it is `closed`. -/
structure Neighbourhood where
  value : Nat
  lower : Nat
  upper : Nat
  closed : Bool
  exponent : Int

namespace Neighbourhood

/-- Whether `x`, in the unit of the value, lies in the interval. -/
def contains (n : Neighbourhood) (x : Nat) : Bool :=
  if n.closed then decide (n.lower ≤ 4 * x ∧ 4 * x ≤ n.upper)
  else decide (n.lower < 4 * x ∧ 4 * x < n.upper)

/-- The number of grid steps to the grid point of the interval that is nearest
to the value, where the grid consists of the multiples of `step`.  Halfway
between two of them the larger one is taken. -/
def nearest? (n : Neighbourhood) (step : Nat) : Option Nat :=
  let below := n.value / step
  let above := below + 1
  match n.contains (below * step), n.contains (above * step) with
  | true, true => some (if 2 * (n.value % step) < step then below else above)
  | true, false => some below
  | false, true => some above
  | false, false => none

/-- The decimal with the fewest digits in the interval.  The grid of all
natural numbers, which comes last, contains the value itself. -/
def shortest (n : Neighbourhood) : Decimal :=
  let length := (Nat.toDigits 10 n.value).length
  let found := (List.range length).reverse.findSome? fun (dropped : Nat) =>
    (n.nearest? (Nat.pow 10 dropped)).map fun c => Decimal.mk c (n.exponent + dropped)
  found.getD ⟨n.value, n.exponent⟩

end Neighbourhood

namespace Binary

variable {f : BinaryFormat}

/-- The numbers that read back as a finite, nonzero datum.  A negative power of
two is a power of five over a power of ten, so the value and the halfway points
to the neighbouring data are whole numbers of quarters.  Halfway points round to
the even significand. -/
def neighbourhood (x : Binary f) : Neighbourhood :=
  let m := x.significand
  let q := x.exponent
  let unit := if 0 ≤ q then Nat.pow 2 q.toNat else Nat.pow 5 (-q).toNat
  { value := m * unit
    lower := (4 * m - if x.hasNarrowGap then 1 else 2) * unit
    upper := (4 * m + 2) * unit
    closed := m % 2 == 0
    exponent := min q 0 }

/-- The shortest decimal that reads back as the magnitude of a finite, nonzero
datum. -/
def shortest (x : Binary f) : Decimal :=
  x.neighbourhood.shortest

/-- The text of a datum: `NaN`, an infinity, a zero with its sign, or the
shortest decimal in the given style. -/
def text (style : Decimal.Style) (x : Binary f) : String :=
  if x.isNaN then "NaN"
  else
    (if x.isNegative then "-" else "")
      ++ (if x.isSpecial then "inf"
          else if x.isZero then "0.0"
          else String.ofList (x.shortest.text style))

end Binary

end StackLowering
