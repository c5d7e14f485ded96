/-! # Pieces and lines of a text -/

namespace PercentFormat.Text

/-- The pieces between the places where a character stands; one more than there are places. -/
def pieces (sep : Char) : List Char → List (List Char)
  | [] => [[]]
  | c :: cs =>
    if c = sep then [] :: pieces sep cs
    else
      match pieces sep cs with
      | [] => [[c]]
      | p :: ps => (c :: p) :: ps

/-- A line without the carriage return that it may end in. -/
def dropReturn (line : List Char) : List Char :=
  if line.getLast? = some '\r' then line.dropLast else line

/-- The lines among the pieces between newlines. What follows the last newline is a line only when
it is not empty, and keeps its carriage return. -/
def linesOfPieces : List (List Char) → List (List Char)
  | [] => []
  | [last] => if last = [] then [] else [last]
  | line :: rest => dropReturn line :: linesOfPieces rest

def lines (cs : List Char) : List (List Char) := linesOfPieces (pieces '\n' cs)

/-- In how many parts double colons divide a text. -/
def colonParts : List Char → Nat
  | ':' :: ':' :: rest => colonParts rest + 1
  | _ :: rest => colonParts rest
  | [] => 1

end PercentFormat.Text
