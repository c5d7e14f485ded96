import PercentFormat.Proofs.Template.Reading

/-!
# Directives in any spelling

A complete directive has marks, a width, a precision, a verb and three places where an argument
index may stand. The brackets in these places may hold anything, and they need not close. Every part
ends where the text behind it does not go on with it, so a text is spelled in one way only.
-/

namespace PercentFormat.Spelling

open Grammar

/-- What stands where an argument index may stand. -/
inductive Slot
  | absent
  | closed (content : List Char) (free : ']' ∉ content)
  | unclosed

namespace Slot

def print : Slot → List Char
  | .absent => []
  | .closed content _ => '[' :: content ++ [']']
  | .unclosed => ['[']

def isPresent : Slot → Bool
  | .absent => false
  | _ => true

/-- The argument that a bracket points at. Brackets count from one to `maxNumber`. -/
def index? : Slot → Option Nat
  | .closed content _ =>
    match Decimal.value? content with
    | some (n + 1) => if n < maxNumber then some n else none
    | _ => none
  | _ => none

def isUsable (s : Slot) : Bool := !s.isPresent || s.index?.isSome

/-- The argument that comes next behind a slot. -/
def pick (next : Nat) (s : Slot) : Nat := s.index?.getD next

/-- A bracket stays open when nothing closes it, and before a `]` that ends the text. -/
def Fits (rest : List Char) : Slot → Prop
  | .absent => Unbracketed rest
  | .closed .. => True
  | .unclosed => ']' ∉ rest ∨ rest = [']']

instance (rest : List Char) : (s : Slot) → Decidable (s.Fits rest)
  | .absent => inferInstanceAs (Decidable (rest.head? ≠ some '['))
  | .closed .. => inferInstanceAs (Decidable True)
  | .unclosed => inferInstanceAs (Decidable (']' ∉ rest ∨ rest = [']']))

end Slot

/-- What stands for a number. -/
inductive Amount
  | absent
  | number (n : Digits)
  | star

namespace Amount

def print : Amount → List Char
  | .absent => []
  | .number n => n.chars
  | .star => ['*']

def isNumber : Amount → Bool
  | .number _ => true
  | _ => false

def isStar : Amount → Bool
  | .star => true
  | _ => false

def measure (next : Nat) : Amount → Option Measure
  | .absent => none
  | .number n => some (.fixed n.value)
  | .star => some (.indirect next)

def past (next : Nat) : Amount → Nat
  | .star => next + 1
  | _ => next

def Fits (rest : List Char) : Amount → Prop
  | .absent => Undigited rest ∧ rest.head? ≠ some '*'
  | .number _ => Undigited rest
  | .star => True

instance (rest : List Char) : (a : Amount) → Decidable (a.Fits rest)
  | .absent => inferInstanceAs (Decidable (Undigited rest ∧ rest.head? ≠ some '*'))
  | .number _ => inferInstanceAs (Decidable (Undigited rest))
  | .star => inferInstanceAs (Decidable True)

end Amount

/-- What stands behind the point of a precision. -/
structure Point where
  index : Slot
  amount : Amount

namespace Point

def print (p : Point) : List Char := '.' :: p.index.print ++ p.amount.print

/-- A point alone means zero. -/
def measure (next : Nat) (p : Point) : Measure :=
  (p.amount.measure (p.index.pick next)).getD (.fixed 0)

def past (next : Nat) (p : Point) : Nat := p.amount.past (p.index.pick next)

end Point

structure Form where
  marks : List Mark
  index : Slot
  width : Amount
  precision : Option Point
  last : Slot
  letter : Char

namespace Form

/-! ## Texts -/

section

variable (f : Form) (cs : List Char)

def behindPrecision : List Char := f.last.print ++ f.letter :: cs

def behindWidth : List Char := (f.precision.elim [] Point.print) ++ f.behindPrecision cs

def behindIndex : List Char := f.width.print ++ f.behindWidth cs

def behindMarks : List Char := f.index.print ++ f.behindIndex cs

def print : List Char := f.marks.map Mark.char ++ f.behindMarks []

/-- Whether an index stands right before the verb's own one, which is missing then. -/
def isIndexed : Bool :=
  match f.precision with
  | none => f.index.isPresent && !f.width.isStar
  | some p => p.index.isPresent && !p.amount.isStar

/-- Each part of a directive ends where it does because of what is behind it. -/
structure Fits : Prop where
  marks : Unmarked (f.behindMarks cs)
  index : f.index.Fits (f.behindIndex cs)
  width : f.width.Fits (f.behindWidth cs)
  point : f.precision.isNone = true → (f.behindPrecision cs).head? ≠ some '.'
  precision : ∀ p ∈ f.precision, p.index.Fits (p.amount.print ++ f.behindPrecision cs) ∧
    p.amount.Fits (f.behindPrecision cs)
  last : if f.isIndexed then f.last.isPresent = false else f.last.Fits (f.letter :: cs)
  letter : f.letter ≠ '%'

instance : Decidable (f.Fits cs) :=
  decidable_of_iff (Unmarked (f.behindMarks cs) ∧
      f.index.Fits (f.behindIndex cs) ∧ f.width.Fits (f.behindWidth cs) ∧
      (f.precision.isNone = true → (f.behindPrecision cs).head? ≠ some '.') ∧
      (∀ p ∈ f.precision, p.index.Fits (p.amount.print ++ f.behindPrecision cs) ∧
        p.amount.Fits (f.behindPrecision cs)) ∧
      (if f.isIndexed then f.last.isPresent = false else f.last.Fits (f.letter :: cs)) ∧
      f.letter ≠ '%')
    ⟨fun ⟨h₁, h₂, h₃, h₄, h₅, h₆, h₇⟩ => ⟨h₁, h₂, h₃, h₄, h₅, h₆, h₇⟩,
      fun h => ⟨h.marks, h.index, h.width, h.point, h.precision, h.last, h.letter⟩⟩

end

/-! ## Meanings -/

section

variable (next : Nat) (f : Form)

/-- The argument under the cursor behind the width. -/
def pastWidth : Nat := f.width.past (f.index.pick next)

/-- The argument that the verb takes. -/
def arg : Nat := f.last.pick (f.precision.elim (f.pastWidth next) (Point.past (f.pastWidth next)))

def directive : Directive where
  verb := .ofChar f.letter
  flags := { flagsOf f.marks with upper := Unicode.isUppercase f.letter }
  width := f.width.measure (f.index.pick next)
  precision := f.precision.map (Point.measure (f.pastWidth next))
  arg := f.arg next

end

/-- All brackets point at arguments, and the first of them belongs to a star or to the verb. -/
def isProper (f : Form) : Bool :=
  f.index.isUsable && f.precision.all (·.index.isUsable) &&
    !(f.index.isPresent && (f.width.isNumber || !f.width.isStar && f.precision.isSome)) &&
    f.last.isUsable

/-- An improper directive becomes a literal and takes no argument of its own. -/
def piece (next : Nat) (f : Form) : Piece :=
  if f.isProper then .directive f.letter (f.directive next) else .literal (badIndex f.letter)

def behind (next : Nat) (f : Form) : Nat := if f.isProper then f.arg next + 1 else f.arg next

end Form

/-! ## Formats -/

inductive Item
  | literal (text : List Char) (free : '%' ∉ text)
  | escape (marks : List Mark)
  | directive (f : Form)

def Item.print : Item → List Char
  | .literal text _ => text
  | .escape marks => '%' :: marks.map Mark.char ++ ['%']
  | .directive f => '%' :: f.print

def print (items : List Item) : List Char := items.flatMap Item.print

/-- Every directive ends where it does because of what is behind it. -/
def Complete : List Item → Prop
  | [] => True
  | .directive f :: items => f.Fits (print items) ∧ Complete items
  | _ :: items => Complete items

instance Complete.decide : (items : List Item) → Decidable (Complete items)
  | [] => inferInstanceAs (Decidable True)
  | .directive f :: items =>
    have := Complete.decide items
    inferInstanceAs (Decidable (f.Fits (print items) ∧ Complete items))
  | .literal .. :: items => Complete.decide items
  | .escape _ :: items => Complete.decide items

def pieces (next : Nat) : List Item → List Piece
  | [] => []
  | .literal text _ :: items => .literal (String.ofList text) :: pieces next items
  | .escape _ :: items => .literal "%" :: pieces next items
  | .directive f :: items => f.piece next :: pieces (f.behind next) items

end PercentFormat.Spelling
