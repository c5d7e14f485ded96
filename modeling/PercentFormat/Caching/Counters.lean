/-! # Miss counters

How often each format was missed that is not cached yet. -/

namespace PercentFormat

structure Counters where
  /-- Formats and their counts, no format twice. -/
  entries : List (String × UInt64) := []

namespace Counters

def get (c : Counters) (format : String) : UInt64 := (c.entries.lookup format).getD 0

def size (c : Counters) : Nat := c.entries.length

def isEmpty (c : Counters) : Bool := c.entries.isEmpty

/-- One more; the largest count stays. -/
def succ (n : UInt64) : UInt64 := if n = 18446744073709551615 then n else n + 1

def bump (c : Counters) (format : String) : UInt64 × Counters :=
  match c.entries.lookup format with
  | some n => (succ n, ⟨c.entries.map fun e => if e.1 = format then (format, succ n) else e⟩)
  | none => (1, ⟨c.entries ++ [(format, 1)]⟩)

def erase (c : Counters) (format : String) : Counters := ⟨c.entries.filter (·.1 ≠ format)⟩

def clear (_ : Counters) : Counters := {}

end Counters

end PercentFormat
