import PercentFormat.Text.Lines

/-! # Paths

Paths are texts with slashes between their parts. The extension of a file name is what follows its
last dot, unless the name has no other dot than its first character. -/

namespace PercentFormat.Path

def join (dir name : String) : String :=
  if dir = "" then name
  else if dir.toList.getLast? = some '/' then dir ++ name
  else dir ++ "/" ++ name

def parts (path : String) : List String := (Text.pieces '/' path.toList).map String.ofList

def isAbsolute (path : String) : Bool := path.toList.head? = some '/'

/-- A text cut at the last place where a character stands. -/
def cutLast? (sep : Char) : List Char → Option (List Char × List Char)
  | [] => none
  | c :: cs =>
    match cutLast? sep cs with
    | some (before, after) => some (c :: before, after)
    | none => if c = sep then some ([], cs) else none

/-- The stem and the extension of a file name. -/
def splitName (name : List Char) : List Char × Option (List Char) :=
  if name = ['.', '.'] then (name, none)
  else
    match cutLast? '.' name with
    | some (c :: cs, after) => (c :: cs, some after)
    | _ => (name, none)

def extension? (name : String) : Option String := (splitName name.toList).2.map String.ofList

def withExtension (path extension : String) : String :=
  match cutLast? '/' path.toList with
  | some (dir, name) =>
    String.ofList (dir ++ '/' :: (splitName name).1) ++ "." ++ extension
  | none => String.ofList (splitName path.toList).1 ++ "." ++ extension

end PercentFormat.Path
