import PercentFormat.Json.Basic

/-! # Numerals

The numbers that numerals stand for. A numeral without point and exponent is an integer if 64 bits
hold it. All others are doubles, computed from 64 bits of digits with one rounding a step, and those
that leave the range of doubles stand for nothing. -/

namespace PercentFormat.Json

structure Numeral where
  negative : Bool
  whole : List Char
  fraction : List Char
  exponent : Option Int

namespace Numeral

/-- Appends digits to a number as long as 64 bits hold it. The digits behind those are left. -/
def appendDigits (n : Nat) : List Char → Nat × List Char
  | [] => (n, [])
  | c :: cs =>
    let m := 10 * n + (c.toNat - '0'.toNat)
    if m < UInt64.size then appendDigits m cs else (n, c :: cs)

/-- The integer that is spelled. The negative zero is none. -/
def integer? (n : Numeral) : Option Int :=
  match n.fraction, n.exponent, appendDigits 0 n.whole with
  | [], none, (m, []) =>
    let i : Int := if n.negative then -(m : Int) else m
    if inRange i ∧ ¬(n.negative = true ∧ i = 0) then some i else none
  | _, _, _ => none

/-- The significand and the exponent of ten. Digits that do not fit are cut off; before the point
they raise the exponent, and behind it digits that fit lower it. -/
def parts (n : Numeral) : Nat × Int :=
  let (s, cut) := appendDigits 0 n.whole
  let (s, unread) := appendDigits s n.fraction
  let taken : Int := (n.fraction.length : Int) - (unread.length : Int)
  (s, (cut.length : Int) - taken + n.exponent.getD 0)

def powerOfTen? (e : Nat) : Option Double := Double.ofNat? (Nat.pow 10 e)

/-- `significand · 10 ^ -e`. Powers beyond `10 ^ 308` are divided by in two steps, and after those
nothing is left of 64 bits. -/
def scaledDown? (significand : Double) (e : Nat) : Option Double := do
  if e ≤ 308 then significand.over? (← powerOfTen? e)
  else if e ≤ 616 then
    (← significand.over? (← powerOfTen? 308)).over? (← powerOfTen? (e - 308))
  else some (.zero false)

/-- `significand · 10 ^ e`, unless that is too large. -/
def scaled? (significand : Nat) (e : Int) : Option Double := do
  if significand = 0 then some (.zero false)
  else
    let x ← Double.ofNat? significand
    if e < 0 then scaledDown? x (-e).toNat
    else if e ≤ 308 then x.times? (← powerOfTen? e.toNat)
    else none

def double? (n : Numeral) : Option Double :=
  let (significand, e) := n.parts
  (scaled? significand e).map fun x => { x with negative := n.negative }

def number? (n : Numeral) : Option Number :=
  match n.integer? with
  | some i => some (.integer i)
  | none => n.double?.map .decimal

end Numeral

end PercentFormat.Json
