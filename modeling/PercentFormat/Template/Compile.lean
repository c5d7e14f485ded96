import PercentFormat.Template.Directive

/-! # Compiling a format

One pass from left to right. Text without a percent sign is literal; each percent sign opens a
directive. Compiling never fails: what is wrong with a directive becomes literal text. -/

namespace PercentFormat

/-- A way to read a directive behind its percent sign that leaves no more text than it was given. -/
structure DirectiveReader where
  read : Cursor → List Char → Read
  length_le : ∀ cursor cs, (read cursor cs).rest.length ≤ cs.length

namespace DirectiveReader

def standard : DirectiveReader := ⟨Read.directive, Read.length_directive_le⟩

/-- The pieces of a format and the number of arguments that they name, from a cursor on. -/
def pieces (reader : DirectiveReader) (cursor : Cursor) : List Char → List Piece × Nat
  | [] => ([], cursor.named)
  | c :: cs =>
    if c = '%' then
      let r := reader.read cursor cs
      let (ps, named) := reader.pieces r.cursor r.rest
      (r.piece :: ps, named)
    else
      let (ps, named) := reader.pieces cursor (cs.dropWhile (· ≠ '%'))
      (.literal (String.ofList (c :: cs.takeWhile (· ≠ '%'))) :: ps, named)
termination_by cs => cs.length
decreasing_by
  · exact Nat.lt_succ_of_le (reader.length_le cursor cs)
  · exact Nat.lt_succ_of_le (List.dropWhile_suffix _).length_le

def compile (reader : DirectiveReader) (format : String) : Template :=
  let (ps, named) := reader.pieces {} format.toList
  Template.ofPieces ps named

end DirectiveReader

namespace Template

def compile (format : String) : Template := DirectiveReader.standard.compile format

/-- A format for a text that is taken as it is: its percent signs are doubled. -/
def escape (s : String) : String :=
  String.ofList (s.toList.flatMap fun c => if c = '%' then [c, c] else [c])

end Template

end PercentFormat
