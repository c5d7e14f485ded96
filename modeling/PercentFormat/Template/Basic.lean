import PercentFormat.Template.Flags
import PercentFormat.Unicode.Uppercase

/-! # Templates

A template is the compiled form of a format text: tokens over one text of its own, the number of
arguments that the directives name, and the number of bytes that every rendering has. -/

namespace PercentFormat

inductive Verb
  | str
  | quoted
  | hex
  | bad
  deriving DecidableEq, Repr

/-- The class of a verb's character. ASCII capitals mean the same as small letters. -/
def Verb.ofChar (c : Char) : Verb :=
  if c = 's' ∨ c = 'S' then .str
  else if c = 'q' ∨ c = 'Q' then .quoted
  else if c = 'x' ∨ c = 'X' then .hex
  else .bad

/-- A width or a precision: a number in the format, or the index of the argument that a star
takes it from. -/
inductive Measure
  | fixed (n : Nat)
  | indirect (arg : Nat)
  deriving DecidableEq, Repr

structure Directive where
  verb : Verb
  flags : Flags
  width : Option Measure
  precision : Option Measure
  arg : Nat
  deriving DecidableEq, Repr

structure Span where
  start : Nat
  stop : Nat
  deriving DecidableEq, Repr

/-- A token covers a span of the template's text: a literal's text, or a directive's letter. -/
inductive Token
  | literal (span : Span)
  | directive (span : Span) (d : Directive)
  deriving DecidableEq, Repr

def Token.span : Token → Span
  | .literal span => span
  | .directive span _ => span

def Token.isLiteral : Token → Bool
  | .literal _ => true
  | .directive .. => false

structure Template where
  text : String
  tokens : List Token
  /-- One more than the largest argument index that counts as named; arguments from there on
  are surplus. -/
  required : Nat
  /-- Bytes of literal text, which every rendering contains. -/
  minSize : Nat
  deriving DecidableEq, Repr

/-- The part of a text that a span covers; empty when the span's ends are not between characters
of the text. -/
def Span.cut (span : Span) (s : String) : String :=
  if span.stop ≤ s.utf8ByteSize then
    (String.fromUTF8? (s.toUTF8.extract span.start span.stop)).getD ""
  else ""

namespace Template

def valueOf (t : Template) (k : Token) : String := k.span.cut t.text

/-- A template without tokens renders to nothing. -/
def isEmpty (t : Template) : Bool := t.tokens.isEmpty

/-- The whole output, when the template is a single literal. -/
def asLiteral (t : Template) : Option String :=
  match t.tokens with
  | [.literal span] => some (span.cut t.text)
  | _ => none

end Template

/-! ## Pieces

The compiler reads a format as a list of pieces. A template lays them out in one text, the
literals that meet being one token. -/

inductive Piece
  | literal (text : String)
  | directive (letter : Char) (d : Directive)
  deriving DecidableEq, Repr

namespace Piece

def text : Piece → String
  | .literal s => s
  | .directive c _ => String.singleton c

def literalSize : Piece → Nat
  | .literal s => s.utf8ByteSize
  | .directive .. => 0

def literalBytes (ps : List Piece) : Nat := ps.foldr (fun p n => p.literalSize + n) 0

/-- Puts a piece in front of pieces in which no two literals meet and none is empty. -/
def cons : Piece → List Piece → List Piece
  | .literal s, ps =>
    if s = "" then ps
    else match ps with
      | .literal t :: qs => .literal (s ++ t) :: qs
      | _ => .literal s :: ps
  | p, ps => p :: ps

/-- Joins the literals that meet and drops the empty ones. -/
def merge (ps : List Piece) : List Piece := ps.foldr cons []

/-- Tokens for pieces that lie end to end from a byte offset on. -/
def layout (start : Nat) : List Piece → List Token
  | [] => []
  | .literal s :: ps =>
    let stop := start + s.utf8ByteSize
    .literal ⟨start, stop⟩ :: layout stop ps
  | .directive c d :: ps =>
    let stop := start + c.utf8Size
    .directive ⟨start, stop⟩ d :: layout stop ps

end Piece

def Template.ofPieces (pieces : List Piece) (required : Nat) : Template where
  text := String.join (pieces.map Piece.text)
  tokens := Piece.layout 0 (Piece.merge pieces)
  required := required
  minSize := Piece.literalBytes pieces

end PercentFormat
