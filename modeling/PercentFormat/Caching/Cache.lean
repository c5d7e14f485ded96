import PercentFormat.Text.Decimal

/-! # The cache of formats

A map from formats to values. An entry stays as it was first inserted until the cache is cleared. -/

namespace PercentFormat

structure Cache (α : Type) where
  /-- Formats and their values, no format twice. -/
  entries : List (String × α) := []

namespace Cache

variable {α : Type}

def get? (c : Cache α) (format : String) : Option α := c.entries.lookup format

def size (c : Cache α) : Nat := c.entries.length

def isEmpty (c : Cache α) : Bool := c.entries.isEmpty

/-- Inserts a value unless the format has one, and says whether it did. -/
def insert (c : Cache α) (format : String) (value : α) : Bool × Cache α :=
  match c.get? format with
  | some _ => (false, c)
  | none => (true, ⟨c.entries ++ [(format, value)]⟩)

def clear (_ : Cache α) : Cache α := {}

def summary (c : Cache α) : String :=
  "FormatCache \x7b entries: " ++ Decimal.text c.size ++ " \x7d"

end Cache

end PercentFormat
