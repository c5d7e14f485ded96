/-! # Flags of a directive

The flags are a set. Their list has a fixed order, the one in which they are shown. -/

namespace PercentFormat

inductive Flag
  | plus
  | minus
  | sharp
  | space
  | zero
  | upper
  deriving DecidableEq, Repr

/-- What the characters between the percent sign and the rest of a directive ask for.
`upper` says that the verb's letter is a capital. -/
structure Flags where
  plus : Bool := false
  minus : Bool := false
  sharp : Bool := false
  space : Bool := false
  zero : Bool := false
  upper : Bool := false
  deriving DecidableEq, Repr

namespace Flags

def empty : Flags := {}

def has (f : Flags) : Flag → Bool
  | .plus => f.plus
  | .minus => f.minus
  | .sharp => f.sharp
  | .space => f.space
  | .zero => f.zero
  | .upper => f.upper

def insert (f : Flags) : Flag → Flags
  | .plus => { f with plus := true }
  | .minus => { f with minus := true }
  | .sharp => { f with sharp := true }
  | .space => { f with space := true }
  | .zero => { f with zero := true }
  | .upper => { f with upper := true }

def ofList (fs : List Flag) : Flags := fs.foldl insert empty

def toList (f : Flags) : List Flag :=
  [.plus, .minus, .sharp, .space, .zero, .upper].filter f.has

end Flags

/-- What a flag character does to the flags before it; `none` for any other character. A minus
sign drops the zero and keeps later zeros out. -/
def Flags.read? (f : Flags) (c : Char) : Option Flags :=
  if c = '+' then some { f with plus := true }
  else if c = '#' then some { f with sharp := true }
  else if c = ' ' then some { f with space := true }
  else if c = '-' then some { f with minus := true, zero := false }
  else if c = '0' then some (if f.minus then f else { f with zero := true })
  else none

/-- Reads flag characters up to the first other character. -/
def Flags.readAll (f : Flags) : List Char → Flags × List Char
  | [] => (f, [])
  | c :: cs =>
    match f.read? c with
    | some g => Flags.readAll g cs
    | none => (f, c :: cs)

theorem Flags.length_readAll_le (f : Flags) (cs : List Char) :
    (f.readAll cs).2.length ≤ cs.length := by
  induction cs generalizing f with
  | nil => simp [readAll]
  | cons c cs ih =>
    simp only [readAll]
    split
    · exact Nat.le_succ_of_le (ih _)
    · exact Nat.le_refl _

end PercentFormat
