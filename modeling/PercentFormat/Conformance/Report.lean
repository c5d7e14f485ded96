import PercentFormat.Conformance.Verdict

/-! # Reports

A report shows a summary as Markdown or as JSON. -/

namespace PercentFormat

structure Report where
  title : String
  /-- The thresholds that the cases were rendered under. -/
  threshold : String
  timestamp : String
  summary : Summary
  deriving DecidableEq, Repr

namespace Report

def row (v : Verdict) : String :=
  let status := if v.passed then "PASS" else "FAIL"
  "| " ++ v.caseName ++ " | " ++ v.family ++ " | " ++ status ++ " |\n"

def fence : String := "\x60\x60\x60"

def failureSection (v : Verdict) : String :=
  "\n### " ++ v.caseName ++ "\n\n" ++ fence ++ "diff\n" ++ v.diff.getD "" ++ fence ++ "\n"

def markdown (r : Report) : String :=
  let item (label text : String) : String := "- " ++ label ++ ": " ++ text ++ "\n"
  let failures := r.summary.failures
  "# " ++ r.title ++ "\n\n" ++
    item "Cache threshold" r.threshold ++
    item "Timestamp" r.timestamp ++
    item "Total" (Decimal.text r.summary.total) ++
    item "Passed" (Decimal.text r.summary.passed) ++
    item "Failed" (Decimal.text r.summary.failed) ++
    "\n| Case | Family | Status |\n|------|--------|--------|\n" ++
    String.join (r.summary.results.map row) ++
    (if failures.isEmpty then ""
      else "\n## Failures\n" ++ String.join (failures.map failureSection))

def fields : List (Json.Field Report) := [
  .required "title" Json.asString fun r title => { r with title },
  .required "threshold" Json.asString fun r threshold => { r with threshold },
  .required "timestamp" Json.asString fun r timestamp => { r with timestamp },
  .required "summary" Summary.ofOutline fun r summary => { r with summary }]

def ofOutline : Json.Outline → Except Json.Failure Report :=
  Json.asRecord fields ⟨"", "", "", ⟨0, 0, 0, []⟩⟩

def toJson (r : Report) : Json :=
  .object [("title", .string r.title), ("threshold", .string r.threshold),
    ("timestamp", .string r.timestamp), ("summary", r.summary.toJson)]

def text (r : Report) : String := r.toJson.pretty

def parse (text : String) : Except Json.Failure Report := Json.parseAs ofOutline text

end Report

end PercentFormat
