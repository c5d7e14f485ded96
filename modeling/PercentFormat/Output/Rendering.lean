import PercentFormat.Show.HexBytes
import PercentFormat.Template.Basic

/-! # Rendering

A rendering is a list of edits. Problems with arguments never stop it; they show up in the text. -/

namespace PercentFormat

namespace Show

/-- Edits of a verb that is given its argument. -/
def argument (letter : String) (d : Directive) (width precision : Option Nat) (arg : String) :
    List Edit :=
  match d.verb with
  | .str => plain d.flags width precision arg
  | .quoted => quoted d.flags width precision arg
  | .hex => hexBytes d.flags width precision arg
  | .bad => [.text "%!", .text letter, .char '(', .text "string=", .text arg, .char ')']

def diagnostic (letter reason : String) : List Edit := [.text "%!", .text letter, .text reason]

/-- The number that a measure gives; arguments are text and give none. -/
def Measure.number? : Option Measure → Option Nat
  | some (.fixed n) => some n
  | _ => none

/-- Whether a measure names an argument that is not there. -/
def Measure.isOutside (args : List String) : Option Measure → Bool
  | some (.indirect i) => decide (args.length ≤ i)
  | _ => false

/-- What is written for a measure that an argument should give. -/
def Measure.complaint (text : String) : Option Measure → List Edit
  | some (.indirect _) => [.text text]
  | _ => []

def directive (args : List String) (letter : String) (d : Directive) : List Edit :=
  Measure.complaint "%!(BADWIDTH)" d.width ++
  Measure.complaint "%!(BADPREC)" d.precision ++
  if Measure.isOutside args d.width || Measure.isOutside args d.precision then
    diagnostic letter "(BADINDEX)"
  else
    match args[d.arg]? with
    | none => diagnostic letter "(MISSING)"
    | some arg => argument letter d (Measure.number? d.width) (Measure.number? d.precision) arg

def surplusArgs : List String → List Edit
  | [] => []
  | [a] => [.text "string=", .text a]
  | a :: as => .text "string=" :: .text a :: .text ", " :: surplusArgs as

def surplus (args : List String) : List Edit :=
  if args.isEmpty then [] else .text "%!(EXTRA " :: surplusArgs args ++ [.char ')']

end Show

namespace Template

def tokenEdits (t : Template) (args : List String) (k : Token) : List Edit :=
  match k with
  | .literal span => [.text (span.cut t.text)]
  | .directive span d => Show.directive args (span.cut t.text) d

/-- The edits of a rendering: room for the literal text, the tokens, the surplus arguments. -/
def edits (t : Template) (args : List String) : List Edit :=
  .reserve t.minSize :: t.tokens.flatMap (t.tokenEdits args) ++ Show.surplus (args.drop t.required)

def renderInto (t : Template) (args : List String) (b : Buffer) : Buffer :=
  b.applyAll (t.edits args)

def render (t : Template) (args : List String) : String := (t.renderInto args .empty).text

end Template

end PercentFormat
