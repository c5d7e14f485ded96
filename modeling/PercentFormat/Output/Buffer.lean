import PercentFormat.Text.Utf8

/-! # Growable buffers

A buffer holds bytes and a capacity. Edits only add to its end. What they add is always the
encoding of whole characters: bytes that are no text become U+FFFD. A buffer that is too small at
least doubles. -/

namespace PercentFormat

inductive Edit
  | reserve (n : Nat)
  | text (s : String)
  | char (c : Char)
  | byte (b : UInt8)
  | raw (bytes : ByteArray)
  | fill (b : UInt8) (count : Nat)

/-- The character that a single byte stands for. -/
def asciiOrReplacement (b : UInt8) : Char :=
  if b < 0x80 then Char.ofNat b.toNat else Utf8.replacement

def Edit.added : Edit → String
  | .reserve _ => ""
  | .text s => s
  | .char c => String.singleton c
  | .byte b => String.singleton (asciiOrReplacement b)
  | .raw bytes => Utf8.decodeLossy bytes
  | .fill b count => String.ofList (List.replicate count (asciiOrReplacement b))

def Edit.allAdded (es : List Edit) : String := String.join (es.map Edit.added)

structure Buffer where
  bytes : ByteArray
  capacity : Nat

namespace Buffer

/-- The capacity of a fresh buffer, and the least that any buffer has. -/
def defaultCapacity : Nat := 64

def empty : Buffer := ⟨ByteArray.empty, defaultCapacity⟩

instance : Inhabited Buffer := ⟨empty⟩

def size (b : Buffer) : Nat := b.bytes.size

def isEmpty (b : Buffer) : Bool := b.size == 0

def text (b : Buffer) : String := (String.fromUTF8? b.bytes).getD ""

/-- The capacity that makes room for `n` more bytes. When there is none the capacity doubles, or
goes straight to what is needed when that is more. -/
def roomFor (b : Buffer) (n : Nat) : Nat :=
  if b.size + n ≤ b.capacity then b.capacity else max (b.size + n) (2 * b.capacity)

def reserve (b : Buffer) (n : Nat) : Buffer := ⟨b.bytes, b.roomFor n⟩

def push (b : Buffer) (bytes : ByteArray) : Buffer :=
  let capacity := b.roomFor bytes.size
  ⟨b.bytes ++ bytes, capacity⟩

def append (b : Buffer) (s : String) : Buffer := b.push s.toUTF8

def apply (b : Buffer) : Edit → Buffer
  | .reserve n => b.reserve n
  | .text s => b.append s
  | .char c => b.append (String.singleton c)
  | .byte byte => b.append (String.singleton (asciiOrReplacement byte))
  | .raw bytes => (Utf8.portions [] (Utf8.segments bytes.data.toList)).foldl append b
  | .fill byte count =>
    if byte < 0x80 then b.push (List.replicate count byte).toByteArray
    else
      (List.replicate count (String.singleton Utf8.replacement)).foldl append
        (b.reserve (3 * count))

def applyAll (b : Buffer) (es : List Edit) : Buffer := es.foldl apply b

def clear (b : Buffer) : Buffer := { b with bytes := ByteArray.empty }

/-- The capacity of a copy: the least power of two that holds the contents. -/
def copyCapacity (size : Nat) : Nat :=
  if size ≤ defaultCapacity then defaultCapacity else 1 <<< ((size - 1).log2 + 1)

def copy (b : Buffer) : Buffer := { b with capacity := copyCapacity b.size }

end Buffer

end PercentFormat
