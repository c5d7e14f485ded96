import PercentFormat.Json.Record
import PercentFormat.Template.Compile

/-! # Listings of templates

A listing shows the tokens of a template with their texts and the names of their flags. -/

namespace PercentFormat

structure TokenListing where
  kind : String
  text : String
  flags : List String
  width : Option Nat
  precision : Option Nat
  arg : Option Nat
  deriving DecidableEq, Repr

structure Listing where
  required : Nat
  minSize : Nat
  tokens : List TokenListing
  deriving DecidableEq, Repr

def Flag.name : Flag → String
  | .plus => "PLUS"
  | .minus => "MINUS"
  | .sharp => "SHARP"
  | .space => "SPACE"
  | .zero => "ZERO"
  | .upper => "UPPER"

def Verb.kind : Verb → String
  | .str => "str"
  | .quoted => "quoted"
  | .hex => "hex"
  | .bad => "bad"

namespace Measure

def value : Measure → Nat
  | .fixed n => n
  | .indirect i => i

/-- The name that marks a measure as indirect. -/
def mark (name : String) : Option Measure → List String
  | some (.indirect _) => [name]
  | _ => []

end Measure

def Directive.flagNames (d : Directive) : List String :=
  d.flags.toList.map Flag.name ++ Measure.mark "INDIRECT_WIDTH" d.width ++
    Measure.mark "INDIRECT_PRECISION" d.precision

namespace Template

def listToken (t : Template) : Token → TokenListing
  | .literal span => ⟨"literal", span.cut t.text, [], none, none, none⟩
  | .directive span d =>
    ⟨d.verb.kind, span.cut t.text, d.flagNames, d.width.map Measure.value,
      d.precision.map Measure.value, some d.arg⟩

def listing (t : Template) : Listing := ⟨t.required, t.minSize, t.tokens.map t.listToken⟩

end Template

namespace TokenListing

/-- Members without a value are left out. -/
def toJson (k : TokenListing) : Json :=
  .object ([("kind", .string k.kind), ("text", .string k.text)] ++
    (if k.flags = [] then [] else [("flags", .ofStrings k.flags)]) ++
    Json.memberIfSome "width" Json.ofNat k.width ++
    Json.memberIfSome "precision" Json.ofNat k.precision ++
    Json.memberIfSome "arg" Json.ofNat k.arg)

end TokenListing

namespace Listing

def toJson (l : Listing) : Json :=
  .object [("required_args", .ofNat l.required), ("min_output_size", .ofNat l.minSize),
    ("tokens", .array (l.tokens.map TokenListing.toJson))]

def text (l : Listing) : String := l.toJson.pretty

end Listing

end PercentFormat
