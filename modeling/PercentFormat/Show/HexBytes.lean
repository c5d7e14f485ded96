import PercentFormat.Show.Quoted

/-! # Hexadecimal bytes

The bytes of a text in hexadecimal. The precision counts bytes, so it may cut a character. The
space flag sets the bytes apart, and the sharp flag marks each group with `0x`. -/

namespace PercentFormat.Show

/-- The mark in front of a group of digits. -/
def hexMark (flags : Flags) : List Char :=
  if flags.sharp then ['0', if flags.upper then 'X' else 'x'] else []

/-- Byte groups with a space between each two. -/
def spaced (mark : List Char) (upper : Bool) : List UInt8 → List Char
  | [] => []
  | [b] => mark ++ Hex.byte upper b
  | b :: bs => mark ++ Hex.byte upper b ++ ' ' :: spaced mark upper bs

def hexChars (flags : Flags) (bytes : List UInt8) : List Char :=
  if flags.space then spaced (hexMark flags) flags.upper bytes
  else hexMark flags ++ bytes.flatMap (Hex.byte flags.upper)

/-- The length of bytes in hexadecimal, from how many there are: two digits each, and as many marks
and spaces as the flags ask. -/
def encodedLength (flags : Flags) (count : Nat) : Nat :=
  let digits := 2 * count
  if flags.space then (if flags.sharp then digits * 2 else digits) + (count - 1)
  else if flags.sharp then digits + 2
  else digits

def hexBytes (flags : Flags) (width precision : Option Nat) (s : String) : List Edit :=
  let all := s.toUTF8.data.toList
  let bytes := match precision with
    | none => all
    | some p => all.take p
  if bytes.isEmpty then [padding flags (width.getD 0)]
  else
    let size := encodedLength flags bytes.length
    pad flags width size (spelled size (hexChars flags bytes))

end PercentFormat.Show
