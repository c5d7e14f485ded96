import PercentFormat.Proofs.Template.Tokens
import PercentFormat.Template.Directive
import PercentFormat.Text.Decimal

/-!
# Well-formed formats

A well-formed format is a list of items: literal text, doubled percent signs and complete
directives. Each item has a spelling and a meaning. The meaning does not look at the spelling: the
flags are a set of marks, an index says which argument comes next, and the template is the runs of
the items laid end to end.
-/

namespace PercentFormat.Grammar

/-! ## Spellings -/

inductive Mark
  | plus
  | minus
  | sharp
  | space
  | zero
  deriving DecidableEq

def Mark.char : Mark → Char
  | .plus => '+'
  | .minus => '-'
  | .sharp => '#'
  | .space => ' '
  | .zero => '0'

/-- A number up to `maxNumber`, in any spelling. -/
structure Digits where
  chars : List Char
  value : Nat
  spelled : Decimal.value? chars = some value
  value_le : value ≤ maxNumber

/-- An argument index, counted from one. -/
structure Index extends Digits where
  pos : 1 ≤ value

def Index.print (m : Index) : List Char := '[' :: m.chars ++ [']']

def printIndex : Option Index → List Char
  | none => []
  | some m => m.print

inductive Width
  | absent
  | fixed (n : Digits) (unmarked : n.chars.head? ≠ some '0')
  | star (m : Option Index)

def Width.print : Width → List Char
  | .absent => []
  | .fixed n _ => n.chars
  | .star m => printIndex m ++ ['*']

inductive Precision
  | absent
  | point
  | fixed (n : Digits)
  | star (m : Option Index)

def Precision.print : Precision → List Char
  | .absent => []
  | .point => ['.']
  | .fixed n => '.' :: n.chars
  | .star m => '.' :: printIndex m ++ ['*']

/-- A character that can only be the verb where it stands. -/
structure Letter where
  char : Char
  plain : char ∉ ['+', '-', '#', ' ', '.', '[', '*', '%']
  not_digit : char.isDigit = false

/-- A directive as it is written, all parts but the verb being optional. -/
structure Form where
  marks : List Mark
  width : Width
  precision : Precision
  index : Option Index
  letter : Letter

def Form.print (f : Form) : List Char :=
  f.marks.map Mark.char ++ f.width.print ++ f.precision.print ++ printIndex f.index ++
    [f.letter.char]

inductive Item
  | literal (text : List Char) (nonempty : text ≠ []) (free : '%' ∉ text)
  | escape (marks : List Mark)
  | directive (f : Form)

def Item.print : Item → List Char
  | .literal text _ _ => text
  | .escape marks => '%' :: marks.map Mark.char ++ ['%']
  | .directive f => '%' :: f.print

def print (items : List Item) : List Char := items.flatMap Item.print

example : print [.literal ['n', '='] (by decide) (by decide),
      .directive ⟨[.minus], .star (some ⟨⟨['0', '2'], 2, rfl, by decide⟩, by decide⟩), .point, none,
        ⟨'s', by decide, rfl⟩⟩, .escape []] =
    ['n', '=', '%', '-', '[', '0', '2', ']', '*', '.', 's', '%', '%'] := rfl

/-! ## Meanings -/

/-- Zeros count only where no minus sign stands, before or behind them. -/
def flagsOf (marks : List Mark) : Flags where
  plus := .plus ∈ marks
  minus := .minus ∈ marks
  sharp := .sharp ∈ marks
  space := .space ∈ marks
  zero := .zero ∈ marks ∧ .minus ∉ marks

/-- The argument that an index picks, `next` being the one that comes without an index. -/
def pick (next : Nat) : Option Index → Nat
  | none => next
  | some m => m.value - 1

def Width.measure (next : Nat) : Width → Option Measure
  | .absent => none
  | .fixed n _ => some (.fixed n.value)
  | .star m => some (.indirect (pick next m))

def Precision.measure (next : Nat) : Precision → Option Measure
  | .absent => none
  | .point => some (.fixed 0)
  | .fixed n => some (.fixed n.value)
  | .star m => some (.indirect (pick next m))

/-- The argument that comes next behind a measure. -/
def follow (next : Nat) : Option Measure → Nat
  | some (.indirect i) => i + 1
  | _ => next

def Form.directive (next : Nat) (f : Form) : Directive :=
  let width := f.width.measure next
  let precision := f.precision.measure (follow next width)
  { verb := .ofChar f.letter.char
    flags := { flagsOf f.marks with upper := Unicode.isUppercase f.letter.char }
    width := width
    precision := precision
    arg := pick (follow (follow next width) precision) f.index }

/-- The pieces of items; a directive leaves the argument behind its own as the next one. -/
def pieces (next : Nat) : List Item → List Piece
  | [] => []
  | .literal text _ _ :: items => .literal (String.ofList text) :: pieces next items
  | .escape _ :: items => .literal "%" :: pieces next items
  | .directive f :: items =>
    .directive f.letter.char (f.directive next) :: pieces ((f.directive next).arg + 1) items

def argument? : Option Measure → Option Nat
  | some (.indirect i) => some i
  | _ => none

/-- The arguments that a directive takes: for its measures and for itself. -/
def argumentsOf : Piece → List Nat
  | .literal _ => []
  | .directive _ d => [d.width, d.precision].filterMap argument? ++ [d.arg]

/-- One more than the largest of some arguments. -/
def needed (args : List Nat) : Nat := args.foldr (fun i n => max (i + 1) n) 0

/-- Pieces with each run of literals made one. -/
def runs : List Piece → List Piece
  | [] => []
  | .directive c d :: ps => .directive c d :: runs ps
  | .literal s :: ps =>
    .literal (s ++ Piece.textOf (ps.takeWhile Piece.isLiteral)) ::
      runs (ps.dropWhile Piece.isLiteral)
termination_by ps => ps.length
decreasing_by
  · simp
  · exact Nat.lt_succ_of_le (List.dropWhile_suffix _).length_le

def tokensOf (ps : List Piece) : List Token :=
  ps.mapIdx fun k p => p.token (Piece.textOf (ps.take k)).utf8ByteSize

def template (items : List Item) : Template :=
  let ps := pieces 0 items
  { text := Piece.textOf ps
    tokens := tokensOf (runs ps)
    required := needed (ps.flatMap argumentsOf)
    minSize := ((ps.filter Piece.isLiteral).map fun p => p.text.utf8ByteSize).sum }

end PercentFormat.Grammar
