/-! # Doubles

Finite binary numbers of 53 bits. Every operation rounds its exact result once, to the nearest
double, and a tie to the one with the even mantissa. -/

namespace PercentFormat

/-- The number `± mantissa · 2 ^ exponent`. The mantissa has 53 bits, and fewer only at the least
exponent. -/
structure Double where
  negative : Bool
  mantissa : Nat
  exponent : Int
  deriving DecidableEq, Repr

namespace Double

def leastExponent : Int := -1074

def greatestExponent : Int := 971

/-- The mantissas with 53 bits begin here. -/
def leastFull : Nat := 4503599627370496

def zero (negative : Bool) : Double := ⟨negative, 0, leastExponent⟩

/-- A quotient rounded to the nearest whole number, a half to the even one. -/
def roundDiv (num den : Nat) : Nat :=
  let whole := num / den
  let rest := num % den
  if den < 2 * rest ∨ (2 * rest = den ∧ whole % 2 = 1) then whole + 1 else whole

/-- The greatest `e` with `2 ^ e ≤ num / den`, for positive numbers. -/
def log2Div (num den : Nat) : Int :=
  let e : Int := (num.log2 : Int) - (den.log2 : Int)
  if den <<< e.toNat ≤ num <<< (-e).toNat then e else e - 1

/-- The exponent of the last bit of `num / den`. -/
def unitExponent (num den : Nat) : Int :=
  let e := log2Div num den - 52
  if e < leastExponent then leastExponent else e

/-- The double nearest to `num / den`, unless that is too large. -/
def ofRatio? (negative : Bool) (num den : Nat) : Option Double :=
  if num = 0 then some (zero negative)
  else
    let e := unitExponent num den
    let m := roundDiv (num <<< (-e).toNat) (den <<< e.toNat)
    let (m, e) := if m = 2 * leastFull then (leastFull, e + 1) else (m, e)
    if e ≤ greatestExponent then some ⟨negative, m, e⟩ else none

/-- The double nearest to `num / den · 2 ^ e`. -/
def ofScaled? (negative : Bool) (num den : Nat) (e : Int) : Option Double :=
  ofRatio? negative (num <<< e.toNat) (den <<< (-e).toNat)

def ofNat? (n : Nat) : Option Double := ofRatio? false n 1

def times? (x y : Double) : Option Double :=
  ofScaled? (x.negative != y.negative) (x.mantissa * y.mantissa) 1 (x.exponent + y.exponent)

def over? (x y : Double) : Option Double :=
  if y.mantissa = 0 then none
  else ofScaled? (x.negative != y.negative) x.mantissa y.mantissa (x.exponent - y.exponent)

end Double

end PercentFormat
