import PercentFormat.Json.Basic

/-! # Outlines

What a text shows of a value. Unlike a value, an outline may have strings and numbers that are well
spelled but stand for nothing, may be nested to any depth, and may break off where the text leaves
the grammar. A value is an outline without such faults. -/

namespace PercentFormat

inductive Json.Outline
  /-- Here the text leaves the grammar. Nothing stands behind it. -/
  | broken
  | null
  | bool (b : Bool)
  /-- A number, if it is not too large. -/
  | number (n : Option Json.Number)
  /-- A string, if all its escapes stand for characters. -/
  | string (s : Option String)
  | array (items : List Json.Outline)
  | object (members : List (Option String × Json.Outline))

namespace Json

instance : Inhabited Outline := ⟨.broken⟩

namespace Outline

mutual

def isIntact : Outline → Bool
  | .broken => false
  | .array items => areIntact items
  | .object members => haveIntactValues members
  | .null => true
  | .bool _ => true
  | .number _ => true
  | .string _ => true

def areIntact : List Outline → Bool
  | [] => true
  | o :: os => isIntact o && areIntact os

def haveIntactValues : List (Option String × Outline) → Bool
  | [] => true
  | (_, o) :: ms => isIntact o && haveIntactValues ms

end

mutual

/-- The value that an outline shows when it has no fault. At most `depth` arrays and objects may be
nested in it. -/
def value? (depth : Nat) : Outline → Option Json
  | .broken => none
  | .null => some .null
  | .bool b => some (.bool b)
  | .number n => n.map .number
  | .string s => s.map .string
  | .array items =>
    match depth with
    | 0 => none
    | depth + 1 => (itemValues? depth items).map .array
  | .object members =>
    match depth with
    | 0 => none
    | depth + 1 => (memberValues? depth members).map .object

def itemValues? (depth : Nat) : List Outline → Option (List Json)
  | [] => some []
  | o :: os => do
    let j ← value? depth o
    let js ← itemValues? depth os
    some (j :: js)

def memberValues? (depth : Nat) :
    List (Option String × Outline) → Option (List (String × Json))
  | [] => some []
  | (name, o) :: ms => do
    let name ← name
    let j ← value? depth o
    let js ← memberValues? depth ms
    some ((name, j) :: js)

end

/-- The most arrays and objects of a value that may be open at a time. -/
def maxDepth : Nat := 127

end Outline

mutual

/-- A value as an outline without faults. -/
def outline : Json → Outline
  | .null => .null
  | .bool b => .bool b
  | .number n => .number (some n)
  | .string s => .string (some s)
  | .array items => .array (itemOutlines items)
  | .object members => .object (memberOutlines members)

def itemOutlines : List Json → List Outline
  | [] => []
  | j :: js => outline j :: itemOutlines js

def memberOutlines : List (String × Json) → List (Option String × Outline)
  | [] => []
  | (name, j) :: ms => (some name, outline j) :: memberOutlines ms

end

end Json

end PercentFormat
