/-! # Hexadecimal digits -/

namespace PercentFormat.Hex

def digit (upper : Bool) (n : Nat) : Char :=
  if n < 10 then Char.ofNat ('0'.toNat + n)
  else Char.ofNat ((if upper then 'A' else 'a').toNat + (n - 10))

/-- The value of a digit, in either case. -/
def value? (c : Char) : Option Nat :=
  if c.isDigit then some (c.toNat - '0'.toNat)
  else if 'a' ≤ c ∧ c ≤ 'f' then some (c.toNat - 'a'.toNat + 10)
  else if 'A' ≤ c ∧ c ≤ 'F' then some (c.toNat - 'A'.toNat + 10)
  else none

/-- The low `width` digits of a number, the highest first. -/
def digits (upper : Bool) (n : Nat) : Nat → List Char
  | 0 => []
  | width + 1 => digits upper (n / 16) width ++ [digit upper (n % 16)]

/-- A number without leading zeros. -/
def numeral (n : Nat) : List Char :=
  if n < 16 then [digit false n] else numeral (n / 16) ++ [digit false (n % 16)]

def byte (upper : Bool) (b : UInt8) : List Char := digits upper b.toNat 2

def ofBytes (bytes : ByteArray) : String :=
  String.ofList (bytes.data.toList.flatMap (byte false))

end PercentFormat.Hex
