import PercentFormat.Json.Basic
import PercentFormat.Number.Shortest
import PercentFormat.Text.Hex

/-! # Writing JSON

One writer for all layouts. A layout says what stands in front of an item or member at a depth, and
what stands behind a colon. -/

namespace PercentFormat.Json

structure Layout where
  gap : Nat → List Char
  afterColon : List Char

namespace Layout

def compact : Layout := ⟨fun _ => [], []⟩

def pretty : Layout := ⟨fun depth => '\n' :: List.replicate (2 * depth) ' ', [' ']⟩

end Layout

/-- How a character is written in a string. Only quotes, backslashes and controls are escaped. -/
def escapeChar (c : Char) : List Char :=
  if c = '"' then ['\\', '"']
  else if c = '\\' then ['\\', '\\']
  else if c = '\x08' then ['\\', 'b']
  else if c = '\t' then ['\\', 't']
  else if c = '\n' then ['\\', 'n']
  else if c = '\x0c' then ['\\', 'f']
  else if c = '\r' then ['\\', 'r']
  else if c.toNat < 0x20 then '\\' :: 'u' :: Hex.digits false c.toNat 4
  else [c]

def writeString (s : String) : List Char := '"' :: s.toList.flatMap escapeChar ++ ['"']

def writeInteger (n : Int) : List Char :=
  if n < 0 then '-' :: Decimal.chars n.natAbs else Decimal.chars n.natAbs

/-- An exponent always has its sign. -/
def writeExponent (e : Int) : List Char :=
  'e' :: (if e < 0 then '-' else '+') :: Decimal.chars e.natAbs

/-- Digits of which the first stands at the place of `10 ^ lead`. From `10 ^ -5` to `10 ^ 15` they
are written out, with a digit on both sides of the point; otherwise an exponent follows the first
digit and its fraction, if there is one. -/
def writeDigits (digits : List Char) (lead : Int) : List Char :=
  if -5 ≤ lead ∧ lead < 0 then '0' :: '.' :: (List.replicate (-lead - 1).toNat '0' ++ digits)
  else if 0 ≤ lead ∧ lead ≤ 15 then
    let places := lead.toNat + 1
    let fraction := if digits.length ≤ places then ['0'] else digits.drop places
    digits.take places ++ List.replicate (places - digits.length) '0' ++ '.' :: fraction
  else
    match digits with
    | [] => []
    | [d] => d :: writeExponent lead
    | d :: fraction => d :: '.' :: (fraction ++ writeExponent lead)

/-- A double is written with its shortest digits. Zero keeps its sign. -/
def writeDouble (x : Double) : List Char :=
  let magnitude :=
    if x.mantissa = 0 then ['0', '.', '0']
    else
      let (digits, lead) := x.shortestDigits
      writeDigits digits lead
  if x.negative then '-' :: magnitude else magnitude

def writeNumber : Number → List Char
  | .integer n => writeInteger n
  | .decimal x => writeDouble x

mutual

/-- A value at a depth. Its first character stands where the text before it ends. -/
def write (l : Layout) (depth : Nat) : Json → List Char
  | .null => ['n', 'u', 'l', 'l']
  | .bool true => ['t', 'r', 'u', 'e']
  | .bool false => ['f', 'a', 'l', 's', 'e']
  | .number n => writeNumber n
  | .string s => writeString s
  | .array [] => ['[', ']']
  | .array (x :: xs) =>
    '[' :: (l.gap (depth + 1) ++
      (write l (depth + 1) x ++ (writeItems l (depth + 1) xs ++ (l.gap depth ++ [']']))))
  | .object [] => ['\x7b', '\x7d']
  | .object ((name, value) :: ms) =>
    '\x7b' :: (l.gap (depth + 1) ++ (writeString name ++ (':' :: (l.afterColon ++
      (write l (depth + 1) value ++ (writeMembers l (depth + 1) ms ++
        (l.gap depth ++ ['\x7d'])))))))

def writeItems (l : Layout) (depth : Nat) : List Json → List Char
  | [] => []
  | x :: xs => ',' :: (l.gap depth ++ (write l depth x ++ writeItems l depth xs))

def writeMembers (l : Layout) (depth : Nat) : List (String × Json) → List Char
  | [] => []
  | (name, value) :: ms =>
    ',' :: (l.gap depth ++ (writeString name ++ (':' :: (l.afterColon ++
      (write l depth value ++ writeMembers l depth ms)))))

end

def compact (j : Json) : String := String.ofList (write .compact 0 j)

def pretty (j : Json) : String := String.ofList (write .pretty 0 j)

end PercentFormat.Json
