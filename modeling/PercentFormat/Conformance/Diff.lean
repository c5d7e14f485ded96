import PercentFormat.Text.Decimal
import PercentFormat.Text.Lines
import PercentFormat.Text.Literal

/-! # Differences between texts

A difference names the lines that differ, with both sides as literals, and the first character that
differs. -/

namespace PercentFormat.Diff

def side (quote : List Char → List Char) (sign : Char) : Option (List Char) → List Char
  | none => []
  | some line => sign :: quote line ++ ['\n']

/-- The hunk of a line number, given the line of either side. Lines that agree have none. -/
def hunk (quote : List Char → List Char) (number : Nat) (e a : Option (List Char)) : List Char :=
  if e = a then []
  else
    "@@ line ".toList ++ Decimal.chars number ++ " @@\n".toList ++ side quote '-' e ++
      side quote '+' a

/-- The hunks of two lists of lines, the first one having a number. -/
def hunks (quote : List Char → List Char) (number : Nat) :
    List (List Char) → List (List Char) → List Char
  | [], [] => []
  | e :: es, [] => hunk quote number (some e) none ++ hunks quote (number + 1) es []
  | [], a :: as => hunk quote number none (some a) ++ hunks quote (number + 1) [] as
  | e :: es, a :: as =>
    hunk quote number (some e) (some a) ++ hunks quote (number + 1) es as

def commonLength : List Char → List Char → Nat
  | e :: es, a :: as => if e = a then commonLength es as + 1 else 0
  | _, _ => 0

def renderWith (quote : List Char → List Char) (expected actual : String) : String :=
  if expected = actual then "[identical]"
  else
    String.ofList ("--- expected\n+++ actual\n".toList ++
      hunks quote 1 (Text.pieces '\n' expected.toList) (Text.pieces '\n' actual.toList) ++
      "first difference at char ".toList ++
      Decimal.chars (commonLength expected.toList actual.toList) ++ ['\n'])

def render (expected actual : String) : String := renderWith Literal.quote expected actual

end PercentFormat.Diff
