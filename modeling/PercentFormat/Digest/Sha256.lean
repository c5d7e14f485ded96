import PercentFormat.Text.Hex

/-! # SHA-256

The message is padded to whole blocks of 64 bytes. Each block is expanded to 64 words, which are
mixed into a state of eight words. -/

namespace PercentFormat.Sha256

structure State where
  a : UInt32
  b : UInt32
  c : UInt32
  d : UInt32
  e : UInt32
  f : UInt32
  g : UInt32
  h : UInt32

namespace State

/-- The fractional parts of the square roots of the first eight primes. -/
def initial : State :=
  ⟨0x6a09e667, 0xbb67ae85, 0x3c6ef372, 0xa54ff53a,
    0x510e527f, 0x9b05688c, 0x1f83d9ab, 0x5be0cd19⟩

def add (s t : State) : State :=
  ⟨s.a + t.a, s.b + t.b, s.c + t.c, s.d + t.d, s.e + t.e, s.f + t.f, s.g + t.g, s.h + t.h⟩

def words (s : State) : List UInt32 := [s.a, s.b, s.c, s.d, s.e, s.f, s.g, s.h]

end State

/-- The fractional parts of the cube roots of the first 64 primes. -/
def roundConstants : Array UInt32 :=
  #[0x428a2f98, 0x71374491, 0xb5c0fbcf, 0xe9b5dba5, 0x3956c25b, 0x59f111f1, 0x923f82a4, 0xab1c5ed5,
    0xd807aa98, 0x12835b01, 0x243185be, 0x550c7dc3, 0x72be5d74, 0x80deb1fe, 0x9bdc06a7, 0xc19bf174,
    0xe49b69c1, 0xefbe4786, 0x0fc19dc6, 0x240ca1cc, 0x2de92c6f, 0x4a7484aa, 0x5cb0a9dc, 0x76f988da,
    0x983e5152, 0xa831c66d, 0xb00327c8, 0xbf597fc7, 0xc6e00bf3, 0xd5a79147, 0x06ca6351, 0x14292967,
    0x27b70a85, 0x2e1b2138, 0x4d2c6dfc, 0x53380d13, 0x650a7354, 0x766a0abb, 0x81c2c92e, 0x92722c85,
    0xa2bfe8a1, 0xa81a664b, 0xc24b8b70, 0xc76c51a3, 0xd192e819, 0xd6990624, 0xf40e3585, 0x106aa070,
    0x19a4c116, 0x1e376c08, 0x2748774c, 0x34b0bcb5, 0x391c0cb3, 0x4ed8aa4a, 0x5b9cca4f, 0x682e6ff3,
    0x748f82ee, 0x78a5636f, 0x84c87814, 0x8cc70208, 0x90befffa, 0xa4506ceb, 0xbef9a3f7, 0xc67178f2]

/-! ## Padding -/

/-- How many zeros bring a message, the end mark and the length to whole blocks. -/
def zeroCount (size : Nat) : Nat := (119 - size % 64) % 64

def bigEndian (n : Nat) : Nat → List UInt8
  | 0 => []
  | count + 1 => bigEndian (n / 256) count ++ [n.toUInt8]

/-- What is added to a message: a one bit, zeros, and the number of bits in eight bytes. -/
def padding (size : Nat) : ByteArray :=
  (0x80 :: (List.replicate (zeroCount size) 0 ++ bigEndian (8 * size) 8)).toByteArray

/-! ## Mixing -/

def rotateRight (x n : UInt32) : UInt32 := (x >>> n) ||| (x <<< (32 - n))

def byteAt (bytes : ByteArray) (i : Nat) : UInt8 := if h : i < bytes.size then bytes[i] else 0

def wordAt (bytes : ByteArray) (i : Nat) : UInt32 :=
  ((byteAt bytes i).toUInt32 <<< 24) ||| ((byteAt bytes (i + 1)).toUInt32 <<< 16) |||
    ((byteAt bytes (i + 2)).toUInt32 <<< 8) ||| (byteAt bytes (i + 3)).toUInt32

def blockWords (bytes : ByteArray) (start : Nat) : Array UInt32 :=
  Array.ofFn fun i : Fin 16 => wordAt bytes (start + 4 * i)

/-- The word that follows at least sixteen words. -/
def nextWord (ws : Array UInt32) : UInt32 :=
  let back (n : Nat) : UInt32 := ws.getD (ws.size - n) 0
  let x := back 15
  let y := back 2
  back 16 + (rotateRight x 7 ^^^ rotateRight x 18 ^^^ (x >>> 3)) + back 7 +
    (rotateRight y 17 ^^^ rotateRight y 19 ^^^ (y >>> 10))

def expand (ws : Array UInt32) : Nat → Array UInt32
  | 0 => ws
  | n + 1 => expand (ws.push (nextWord ws)) n

def round (s : State) (k : UInt32) : State :=
  let t := s.h + (rotateRight s.e 6 ^^^ rotateRight s.e 11 ^^^ rotateRight s.e 25) +
    ((s.e &&& s.f) ^^^ (~~~s.e &&& s.g)) + k
  let u := (rotateRight s.a 2 ^^^ rotateRight s.a 13 ^^^ rotateRight s.a 22) +
    ((s.a &&& s.b) ^^^ (s.a &&& s.c) ^^^ (s.b &&& s.c))
  ⟨t + u, s.a, s.b, s.c, s.d + t, s.e, s.f, s.g⟩

def rounds (ws : Array UInt32) (s : State) : Nat → State
  | 0 => s
  | n + 1 => rounds ws (round s (ws.getD (63 - n) 0 + roundConstants.getD (63 - n) 0)) n

def mix (bytes : ByteArray) (start : Nat) (s : State) : State :=
  s.add (rounds (expand (blockWords bytes start) 48) s 64)

/-- Mixes in `n` blocks, the first one beginning at `start`. -/
def mixBlocks (bytes : ByteArray) (start : Nat) (s : State) : Nat → State
  | 0 => s
  | n + 1 => mixBlocks bytes (start + 64) (mix bytes start s) n

def hash (message : ByteArray) : State :=
  let padded := message ++ padding message.size
  mixBlocks padded 0 .initial (padded.size / 64)

def hex (message : ByteArray) : String :=
  String.ofList ((hash message).words.flatMap fun w => Hex.digits false w.toNat 8)

end PercentFormat.Sha256
