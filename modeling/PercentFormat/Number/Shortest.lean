import PercentFormat.Number.Double
import PercentFormat.Text.Decimal

/-! # Shortest decimals

The fewest digits that identify a double. Of the decimals with so many digits the nearest one is
taken, and of two that are equally near the even one. -/

namespace PercentFormat.Double

/-- The numbers `d · 10 ^ g` and `n · 2 ^ q` as multiples of one unit. -/
def alike (d : Nat) (g : Int) (n : Nat) (q : Int) : Nat × Nat :=
  ((d * Nat.pow 10 g.toNat) <<< (-q).toNat, (n * Nat.pow 10 (-g).toNat) <<< q.toNat)

/-- Whether the double below is only half as far away as the double above. -/
def isNarrowBelow (x : Double) : Bool :=
  decide (x.mantissa = leastFull ∧ leastExponent < x.exponent)

/-- Whether the magnitude of `x` is the double nearest to `d · 10 ^ g`. The ends of the interval
belong to it when the mantissa is even. -/
def isNearestTo (x : Double) (d : Nat) (g : Int) : Bool :=
  let low := if x.isNarrowBelow then 4 * x.mantissa - 1 else 4 * x.mantissa - 2
  let (a, low) := alike d g low (x.exponent - 2)
  let (b, high) := alike d g (4 * x.mantissa + 2) (x.exponent - 2)
  if x.mantissa % 2 = 0 then decide (low ≤ a ∧ b ≤ high) else decide (low < a ∧ b < high)

/-- The exponent of the first decimal digit of a positive magnitude. No double has its first digit
below the place of `10 ^ -324`. -/
def leadExponent (x : Double) : Int :=
  let (unit, value) := alike 1 (-324) x.mantissa x.exponent
  ((Decimal.chars (value / unit)).length : Int) - 325

/-- The multiple of `10 ^ g` that stands for `x`, if one does: then one of the two around `x`
does. -/
def multiple? (x : Double) (g : Int) : Option Nat :=
  let (unit, value) := alike 1 g x.mantissa x.exponent
  let low := value / unit
  match x.isNearestTo low g, x.isNearestTo (low + 1) g with
  | false, false => none
  | true, false => some low
  | false, true => some (low + 1)
  | true, true =>
    let (middle, value) := alike (2 * low + 1) g (2 * x.mantissa) x.exponent
    some (if value < middle ∨ (value = middle ∧ low % 2 = 0) then low else low + 1)

/-- The magnitude of `x` as a whole number times a power of ten. -/
def exactDecimal (x : Double) : Nat × Int :=
  if 0 ≤ x.exponent then (x.mantissa <<< x.exponent.toNat, 0)
  else (x.mantissa * Nat.pow 5 (-x.exponent).toNat, x.exponent)

/-- The coarsest decimal that stands for `x`. Seventeen digits are always enough. -/
def shortestDecimal (x : Double) : Nat × Int :=
  let found := (List.range 17).findSome? fun (i : Nat) =>
    let g := x.leadExponent - (i : Int)
    (x.multiple? g).map (·, g)
  found.getD x.exactDecimal

/-- The digits of the shortest decimal, without zeros at the end, and the exponent of the first
one. -/
def shortestDigits (x : Double) : List Char × Int :=
  let (d, g) := x.shortestDecimal
  let cs := Decimal.chars d
  ((cs.reverse.dropWhile (· == '0')).reverse, (cs.length : Int) - 1 + g)

end PercentFormat.Double
