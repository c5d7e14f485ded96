import PercentFormat.Output.Buffer
import PercentFormat.Template.Flags

/-! # Padding and cutting

Widths count characters. The padding goes to the left unless the minus flag is set, and is made of
zeros when the zero flag is set. -/

namespace PercentFormat.Show

def fillByte (flags : Flags) : UInt8 := if flags.zero then '0'.toUInt8 else ' '.toUInt8

def padding (flags : Flags) (count : Nat) : Edit := .fill (fillByte flags) count

/-- Edits that show `size` characters, padded to a width. -/
def pad (flags : Flags) (width : Option Nat) (size : Nat) (body : List Edit) : List Edit :=
  let fill := padding flags (width.getD 0 - size)
  if flags.minus then body ++ [fill] else fill :: body

/-- At most the first `precision` characters of a text. -/
def cut (precision : Option Nat) (s : String) : String :=
  match precision with
  | none => s
  | some p => String.ofList (s.toList.take p)

/-- A text as it is, cut to the precision and padded to the width. -/
def plain (flags : Flags) (width precision : Option Nat) (s : String) : List Edit :=
  let s := cut precision s
  if width.getD 0 = 0 then [.text s] else pad flags width s.length [.text s]

end PercentFormat.Show
