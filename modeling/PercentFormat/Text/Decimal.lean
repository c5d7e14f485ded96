/-! # Decimal numerals -/

namespace PercentFormat.Decimal

def digit (n : Nat) : Char := Char.ofNat ('0'.toNat + n)

/-- The digits of a number, the highest first and without leading zeros. -/
def chars (n : Nat) : List Char :=
  if n < 10 then [digit n] else chars (n / 10) ++ [digit (n % 10)]

def text (n : Nat) : String := String.ofList (chars n)

/-- The digits of a number, filled up with zeros on the left. -/
def padded (width n : Nat) : String :=
  let cs := chars n
  String.ofList (List.replicate (width - cs.length) '0' ++ cs)

/-- The number that some digits stand for, behind the digits of `n`. -/
def valueFrom (n : Nat) (cs : List Char) : Nat :=
  cs.foldl (fun n c => 10 * n + (c.toNat - '0'.toNat)) n

def value? (cs : List Char) : Option Nat :=
  if cs ≠ [] ∧ cs.all Char.isDigit then some (valueFrom 0 cs) else none

end PercentFormat.Decimal
