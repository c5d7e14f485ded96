import PercentFormat.Conformance.LogEntry
import PercentFormat.Text.Lines
import PercentFormat.Unicode.WhiteSpace

/-! # Checking logs

Every line of a log that is not blank has to hold an entry. Problems are reported with the numbers
of their lines; a line is checked on its own. -/

namespace PercentFormat

inductive LogProblem
  | notJson
  /-- A field that every entry has is missing or no string. -/
  | missing (field : String)
  /-- A trace id of fewer than three parts. -/
  | shortTraceId (traceId : String)
  | unknownLevel (level : String)
  /-- Some other field has a value of the wrong shape. -/
  | mismatched
  deriving DecidableEq, Repr

namespace LogProblem

/-- The field to blame, or a word in angle brackets where it is the line. -/
def field : LogProblem → String
  | .notJson => "<json>"
  | .missing name => name
  | .shortTraceId _ => "trace_id"
  | .unknownLevel _ => "level"
  | .mismatched => "<deserialization>"

/-- What is wrong, without the JSON reader's own words for it. -/
def message : LogProblem → String
  | .notJson => "invalid JSON"
  | .missing _ => "missing or not a string"
  | .shortTraceId id => "expected <ns>::<run>::<seq>, got '" ++ id ++ "'"
  | .unknownLevel level => "unknown level '" ++ level ++ "'"
  | .mismatched => "failed to deserialize"

end LogProblem

structure LogError where
  line : Nat
  problem : LogProblem
  deriving DecidableEq, Repr

def LogError.text (e : LogError) : String :=
  "line " ++ Decimal.text e.line ++ ": field '" ++ e.problem.field ++ "': " ++ e.problem.message

namespace LogEntry

def textOf? (name : String) (j : Json) : Option String := (j.get? name).bind Json.string?

def requiredNames : List String := ["timestamp", "trace_id", "level", "event"]

def missingProblems (j : Json) : List LogProblem :=
  (requiredNames.filter fun name => (textOf? name j).isNone).map .missing

def traceIdProblems (j : Json) : List LogProblem :=
  match textOf? "trace_id" j with
  | some id => if Text.colonParts id.toList < 3 then [.shortTraceId id] else []
  | none => []

def levelProblems (j : Json) : List LogProblem :=
  match textOf? "level" j with
  | some level => if LogLevel.ofName? level = none then [.unknownLevel level] else []
  | none => []

def problems (j : Json) : List LogProblem :=
  missingProblems j ++ traceIdProblems j ++ levelProblems j

/-- The entry that a line holds. A member that is given twice has its last value. -/
def ofLine (line : List Char) : Except (List LogProblem) LogEntry :=
  match Json.parse? line with
  | none => .error [.notJson]
  | some j =>
    match problems j.canonical with
    | [] =>
      match ofJson j.canonical with
      | .ok e => .ok e
      | .error _ => .error [.mismatched]
    | p :: ps => .error (p :: ps)

def ofNumberedLine (line : List Char) (number : Nat) : Except (List LogError) LogEntry :=
  match ofLine line with
  | .ok e => .ok e
  | .error ps => .error (ps.map (⟨number, ·⟩))

end LogEntry

namespace Log

/-- The errors of a line. Blank lines have none. -/
def lineErrors (line : List Char) (number : Nat) : List LogError :=
  if Unicode.isBlank line then []
  else
    match LogEntry.ofNumberedLine line number with
    | .ok _ => []
    | .error es => es

/-- The errors of lines of which the first has a number. -/
def errorsFrom (number : Nat) : List (List Char) → List LogError
  | [] => []
  | line :: rest => lineErrors line number ++ errorsFrom (number + 1) rest

def errors (content : String) : List LogError := errorsFrom 1 (Text.lines content.toList)

/-- How many lines are not blank. -/
def entryCount (content : String) : Nat :=
  (Text.lines content.toList).countP (! Unicode.isBlank ·)

/-- The number of entries, or all errors when there are any. -/
def check (content : String) : Except (List LogError) Nat :=
  match errors content with
  | [] => .ok (entryCount content)
  | e :: es => .error (e :: es)

end Log

end PercentFormat
