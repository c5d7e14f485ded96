import PercentFormat.Json.Record

/-! # Verdicts

The verdict on a case says what was expected and what came, and the summary counts verdicts. -/

namespace PercentFormat

structure Verdict where
  caseName : String
  family : String
  passed : Bool
  expected : String
  actual : String
  diff : Option String
  deriving DecidableEq, Repr

structure Summary where
  total : Nat
  passed : Nat
  failed : Nat
  results : List Verdict
  deriving DecidableEq, Repr

namespace Verdict

def fields : List (Json.Field Verdict) := [
  .required "case_name" Json.asString fun v caseName => { v with caseName },
  .required "family" Json.asString fun v family => { v with family },
  .required "passed" Json.asBool fun v passed => { v with passed },
  .required "expected" Json.asString fun v expected => { v with expected },
  .required "actual" Json.asString fun v actual => { v with actual },
  .optional "diff" Json.asString fun v diff => { v with diff }]

def ofOutline : Json.Outline → Except Json.Failure Verdict :=
  Json.asRecord fields ⟨"", "", false, "", "", none⟩

def toJson (v : Verdict) : Json :=
  .object [("case_name", .string v.caseName), ("family", .string v.family),
    ("passed", .bool v.passed), ("expected", .string v.expected), ("actual", .string v.actual),
    ("diff", Json.ofOption .string v.diff)]

/-- Order by family and then by the case's name. -/
def before (a b : Verdict) : Bool :=
  decide (a.family < b.family) || (a.family == b.family && decide (a.caseName ≤ b.caseName))

end Verdict

namespace Summary

def ofResults (results : List Verdict) : Summary where
  total := results.length
  passed := results.countP (·.passed)
  failed := results.length - results.countP (·.passed)
  results := results

def allPassed (s : Summary) : Bool := s.failed == 0

def failures (s : Summary) : List Verdict := s.results.filter (! ·.passed)

def fields : List (Json.Field Summary) := [
  .required "total" Json.asNat fun s total => { s with total },
  .required "passed" Json.asNat fun s passed => { s with passed },
  .required "failed" Json.asNat fun s failed => { s with failed },
  .required "results" (Json.asList Verdict.ofOutline) fun s results => { s with results }]

/-- The counts are taken as they are given. -/
def ofOutline : Json.Outline → Except Json.Failure Summary := Json.asRecord fields ⟨0, 0, 0, []⟩

def toJson (s : Summary) : Json :=
  .object [("total", .ofNat s.total), ("passed", .ofNat s.passed), ("failed", .ofNat s.failed),
    ("results", .array (s.results.map Verdict.toJson))]

end Summary

end PercentFormat
