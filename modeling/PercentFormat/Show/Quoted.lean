import PercentFormat.Show.Padding
import PercentFormat.Text.Hex
import PercentFormat.Unicode.Printable

/-! # Quoted text

Text between double quotes, with escapes for what cannot stand for itself; or, where the sharp flag
asks for it and the text allows it, between backquotes without any escape. -/

namespace PercentFormat.Show

def backquote : Char := '\x60'
def byteOrderMark : Char := '\ufeff'

/-- Whether a text can stand between backquotes. -/
def canBackquote (s : String) : Bool :=
  s.toList.all fun c =>
    c != byteOrderMark && c != backquote && c != '\x7f' && (decide (' ' ≤ c) || c == '\t')

/-- How a character appears between double quotes. -/
inductive Escaped
  | itself (c : Char)
  | short (letter : Char)
  | byte (value : UInt8)
  | unicode (value : UInt32)
  | longUnicode (value : UInt32)
  deriving DecidableEq

namespace Escaped

/-- A backslash, a letter and the low `width` hexadecimal digits of a number. -/
def numbered (letter : Char) (value width : Nat) : List Char :=
  '\\' :: letter :: Hex.digits false value width

def chars : Escaped → List Char
  | .itself c => [c]
  | .short letter => ['\\', letter]
  | .byte value => numbered 'x' value.toNat 2
  | .unicode value => numbered 'u' value.toNat 4
  | .longUnicode value => numbered 'U' value.toNat 8

/-- The length that is reckoned with before anything is written. -/
def charLen : Escaped → Nat
  | .itself _ => 1
  | .short _ => 2
  | .byte _ => 4
  | .unicode _ => 6
  | .longUnicode _ => 10

/-- Control characters that have a letter of their own. -/
def shortLetter? (c : Char) : Option Char :=
  if c = '\x07' then some 'a'
  else if c = '\x08' then some 'b'
  else if c = '\x0c' then some 'f'
  else if c = '\n' then some 'n'
  else if c = '\r' then some 'r'
  else if c = '\t' then some 't'
  else if c = '\x0b' then some 'v'
  else none

/-- The escape of a character. `printable` tells which characters beyond ASCII may stand for
themselves; none does when only ASCII is wanted. -/
def ofChar (printable : Char → Bool) (asciiOnly : Bool) (c : Char) : Escaped :=
  if c = '"' ∨ c = '\\' then .short c
  else if c.toNat < 0x80 then
    if 0x20 ≤ c.toNat ∧ c.toNat < 0x7f then .itself c
    else
      match shortLetter? c with
      | some letter => .short letter
      | none => .byte c.toUInt8
  else if printable c && !asciiOnly then .itself c
  else if c.toNat < 0x10000 then .unicode c.val
  else .longUnicode c.val

end Escaped

/-- A text between double quotes. -/
def doubleQuoted (printable : Char → Bool) (asciiOnly : Bool) (s : String) : List Char :=
  '"' :: s.toList.flatMap (fun c => (Escaped.ofChar printable asciiOnly c).chars) ++ ['"']

/-- The length of a text between double quotes, from the lengths of its escapes. -/
def quotedLength (printable : Char → Bool) (asciiOnly : Bool) (s : String) : Nat :=
  2 + s.toList.foldr (fun c n => (Escaped.ofChar printable asciiOnly c).charLen + n) 0

/-- Edits that add characters one by one, having made room for `size` bytes first. -/
def spelled (size : Nat) (cs : List Char) : List Edit := .reserve size :: cs.map .char

def quotedWith (printable : Char → Bool) (flags : Flags) (width precision : Option Nat)
    (s : String) : List Edit :=
  let s := cut precision s
  if flags.sharp && canBackquote s then
    pad flags width (s.length + 2) [.char backquote, .text s, .char backquote]
  else
    let size := quotedLength printable flags.plus s
    pad flags width size (spelled size (doubleQuoted printable flags.plus s))

def quoted : Flags → Option Nat → Option Nat → String → List Edit := quotedWith Unicode.isPrintable

end PercentFormat.Show
