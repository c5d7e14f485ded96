import PercentFormat.Json.Record

/-! # Fixtures

A fixture set is a family of cases, each a format, arguments and the text that is expected. -/

namespace PercentFormat

structure FixtureCase where
  name : String
  format : String
  args : List String := []
  expected : String
  /-- A remark, such as where the expectation comes from. -/
  note : Option String := none
  deriving DecidableEq, Repr

structure FixtureSet where
  version : String
  family : String
  cases : List FixtureCase
  deriving DecidableEq, Repr

namespace FixtureCase

def fields : List (Json.Field FixtureCase) := [
  .required "name" Json.asString fun c name => { c with name },
  .required "format" Json.asString fun c format => { c with format },
  .defaulted "args" (Json.asList Json.asString) fun c args => { c with args },
  .required "expected" Json.asString fun c expected => { c with expected },
  .defaulted "note" (Json.asOption Json.asString) fun c note => { c with note }]

def ofOutline : Json.Outline → Except Json.Failure FixtureCase :=
  Json.asRecord fields { name := "", format := "", expected := "" }

/-- A note that is missing is left out. -/
def toJson (c : FixtureCase) : Json :=
  .object ([("name", .string c.name), ("format", .string c.format),
    ("args", .ofStrings c.args), ("expected", .string c.expected)] ++
    Json.memberIfSome "note" .string c.note)

end FixtureCase

namespace FixtureSet

def fields : List (Json.Field FixtureSet) := [
  .required "version" Json.asString fun s version => { s with version },
  .required "family" Json.asString fun s family => { s with family },
  .required "cases" (Json.asList FixtureCase.ofOutline) fun s cases => { s with cases }]

def ofOutline : Json.Outline → Except Json.Failure FixtureSet :=
  Json.asRecord fields ⟨"", "", []⟩

def toJson (s : FixtureSet) : Json :=
  .object [("version", .string s.version), ("family", .string s.family),
    ("cases", .array (s.cases.map FixtureCase.toJson))]

def parse (text : String) : Except Json.Failure FixtureSet := Json.parseAs ofOutline text

def text (s : FixtureSet) : String := s.toJson.pretty

end FixtureSet

end PercentFormat
