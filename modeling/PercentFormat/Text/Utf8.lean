/-! # Lossy decoding of bytes

Bytes split into segments, each the encoding of one character or a longest ill-formed run: a lead
byte with as many continuation bytes as could still have belonged to a character. Text keeps the
characters and shows U+FFFD for each ill-formed segment. -/

namespace PercentFormat.Utf8

inductive Segment
  | scalar (c : Char)
  | illFormed (bytes : List UInt8)
  deriving DecidableEq

/-- What stands for an ill-formed segment. -/
def replacement : Char := Char.ofNat 0xfffd

/-- What a lead byte beyond ASCII promises: the bits it gives, the number of bytes that follow
it, and the range of the first of them. -/
structure Lead where
  bits : Nat
  more : Nat
  lo : UInt8
  hi : UInt8

/-- The ranges leave out overlong encodings, surrogates and values beyond U+10FFFF. -/
def lead? (b : UInt8) : Option Lead :=
  if b < 0xc2 then none
  else if b < 0xe0 then some ⟨b.toNat - 0xc0, 1, 0x80, 0xbf⟩
  else if b = 0xe0 then some ⟨0, 2, 0xa0, 0xbf⟩
  else if b = 0xed then some ⟨0xd, 2, 0x80, 0x9f⟩
  else if b < 0xf0 then some ⟨b.toNat - 0xe0, 2, 0x80, 0xbf⟩
  else if b = 0xf0 then some ⟨0, 3, 0x90, 0xbf⟩
  else if b < 0xf4 then some ⟨b.toNat - 0xf0, 3, 0x80, 0xbf⟩
  else if b = 0xf4 then some ⟨4, 3, 0x80, 0x8f⟩
  else none

/-- Reads the bytes that follow a lead byte. `seen` holds the bytes of the segment so far, the
last one first. -/
def follow (more : Nat) (lo hi : UInt8) (bits : Nat) (seen : List UInt8) :
    List UInt8 → Segment × List UInt8
  | [] => (if more = 0 then .scalar (Char.ofNat bits) else .illFormed seen.reverse, [])
  | b :: rest =>
    match more with
    | 0 => (.scalar (Char.ofNat bits), b :: rest)
    | n + 1 =>
      if lo ≤ b ∧ b ≤ hi then follow n 0x80 0xbf (64 * bits + b.toNat % 64) (b :: seen) rest
      else (.illFormed seen.reverse, b :: rest)

/-- The first segment of some bytes, and the bytes behind it. -/
def first (b : UInt8) (rest : List UInt8) : Segment × List UInt8 :=
  if b < 0x80 then (.scalar (Char.ofNat b.toNat), rest)
  else
    match lead? b with
    | none => (.illFormed [b], rest)
    | some l => follow l.more l.lo l.hi l.bits [b] rest

theorem length_follow_le (more : Nat) (lo hi : UInt8) (bits : Nat) (seen bs : List UInt8) :
    (follow more lo hi bits seen bs).2.length ≤ bs.length := by
  induction bs generalizing more lo hi bits seen with
  | nil => simp [follow]
  | cons b rest ih =>
    cases more with
    | zero => simp [follow]
    | succ n =>
      simp only [follow]
      split
      · exact Nat.le_succ_of_le (ih ..)
      · exact Nat.le_refl _

theorem length_first_le (b : UInt8) (rest : List UInt8) :
    (first b rest).2.length ≤ rest.length := by
  unfold first
  split
  · exact Nat.le_refl _
  · split
    · exact Nat.le_refl _
    · exact length_follow_le ..

def segments : List UInt8 → List Segment
  | [] => []
  | b :: rest => (first b rest).1 :: segments (first b rest).2
termination_by bs => bs.length
decreasing_by exact Nat.lt_succ_of_le (length_first_le b rest)

def Segment.shown : Segment → Char
  | .scalar c => c
  | .illFormed _ => replacement

/-- The text that some bytes decode to. -/
def decodeLossy (bytes : ByteArray) : String :=
  String.ofList ((segments bytes.data.toList).map Segment.shown)

/-- The decoded text in the portions in which it is written: well-formed runs, each ill-formed
segment between them. `run` holds the characters of the present run, the last one first. -/
def portions (run : List Char) : List Segment → List String
  | [] => [String.ofList run.reverse]
  | .scalar c :: rest => portions (c :: run) rest
  | .illFormed _ :: rest =>
    String.ofList run.reverse :: String.singleton replacement :: portions [] rest

end PercentFormat.Utf8
