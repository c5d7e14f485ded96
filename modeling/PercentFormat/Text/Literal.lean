import PercentFormat.Text.Hex
import PercentFormat.Unicode.GraphemeExtend
import PercentFormat.Unicode.Printable

/-! # String literals

A text between double quotes on a single line. What may not stand for itself is written as a short
escape or by its code point in braces. -/

namespace PercentFormat.Literal

/-- How a character is written, given which characters may stand for themselves. -/
def escapeChar (plain : Char → Bool) (c : Char) : List Char :=
  if c = '"' then ['\\', '"']
  else if c = '\\' then ['\\', '\\']
  else if c = '\t' then ['\\', 't']
  else if c = '\r' then ['\\', 'r']
  else if c = '\n' then ['\\', 'n']
  else if c = '\x00' then ['\\', '0']
  else if plain c then [c]
  else '\\' :: 'u' :: '\x7b' :: Hex.numeral c.toNat ++ ['\x7d']

/-- A literal, given which characters may stand for themselves. -/
def quoteWith (plain : Char → Bool) (cs : List Char) : List Char :=
  '"' :: cs.flatMap (escapeChar plain) ++ ['"']

/-- The voiced and semi-voiced sound marks of half width. They are letters with a place of their
own, though they join the character before them. -/
def isHalfwidthSoundMark (c : Char) : Bool := c == '\uff9e' || c == '\uff9f'

/-- Marks that join the character before them do not stand for themselves, though printable. -/
def isPlain (c : Char) : Bool :=
  Unicode.isPrintable c && (!Unicode.isGraphemeExtend c || isHalfwidthSoundMark c)

def quote (cs : List Char) : List Char := quoteWith isPlain cs

end PercentFormat.Literal
