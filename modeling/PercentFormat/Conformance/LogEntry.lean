import PercentFormat.Json.Record

/-! # Log entries

A run log has one entry a line, each an object of JSON. Four fields are always there, the others
are left out when they have no value. -/

namespace PercentFormat

inductive LogLevel
  | trace
  | debug
  | info
  | warn
  | error
  deriving DecidableEq, Repr

namespace LogLevel

def name : LogLevel → String
  | .trace => "trace"
  | .debug => "debug"
  | .info => "info"
  | .warn => "warn"
  | .error => "error"

def all : List LogLevel := [.trace, .debug, .info, .warn, .error]

def ofName? (name : String) : Option LogLevel := all.find? (·.name = name)

end LogLevel

inductive Outcome
  | pass
  | fail
  | skip
  deriving DecidableEq, Repr

namespace Outcome

def name : Outcome → String
  | .pass => "pass"
  | .fail => "fail"
  | .skip => "skip"

def all : List Outcome := [.pass, .fail, .skip]

def ofName? (name : String) : Option Outcome := all.find? (·.name = name)

def ofBool (passed : Bool) : Outcome := if passed then .pass else .fail

/-- An outcome is given by its name, or by an object that has the name for its only member. -/
def ofOutline : Json.Outline → Except Json.Failure Outcome
  | .object [(name, .null)] => Json.asNamed ofName? (.string name)
  | o => Json.asNamed ofName? o

end Outcome

structure LogEntry where
  timestamp : String
  /-- Three parts or more with double colons between them. -/
  traceId : String
  level : LogLevel
  event : String
  family : Option String := none
  case : Option String := none
  threshold : Option String := none
  outcome : Option Outcome := none
  latency : Option UInt64 := none
  artifacts : Option (List String) := none
  details : Option Json := none

namespace LogEntry

def fields : List (Json.Field LogEntry) := [
  .required "timestamp" Json.asString fun e timestamp => { e with timestamp },
  .required "trace_id" Json.asString fun e traceId => { e with traceId },
  .required "level" (Json.asNamed LogLevel.ofName?) fun e level => { e with level },
  .required "event" Json.asString fun e event => { e with event },
  .optional "family" Json.asString fun e family => { e with family },
  .optional "case" Json.asString fun e case => { e with case },
  .optional "threshold" Json.asString fun e threshold => { e with threshold },
  .optional "outcome" Outcome.ofOutline fun e outcome => { e with outcome },
  .optional "latency_ns" Json.asNat fun e latency => { e with latency := latency.map Nat.toUInt64 },
  .optional "artifact_refs" (Json.asList Json.asString) fun e artifacts => { e with artifacts },
  .optional "details" Json.asValue fun e details => { e with details }]

def ofJson (j : Json) : Except Json.Failure LogEntry :=
  Json.asRecord fields { timestamp := "", traceId := "", level := .info, event := "" } j.outline

/-- Details are written in canonical form. -/
def toJson (e : LogEntry) : Json :=
  .object ([("timestamp", .string e.timestamp), ("trace_id", .string e.traceId),
      ("level", .string e.level.name), ("event", .string e.event)] ++
    Json.memberIfSome "family" .string e.family ++
    Json.memberIfSome "case" .string e.case ++
    Json.memberIfSome "threshold" .string e.threshold ++
    Json.memberIfSome "outcome" (fun o => .string o.name) e.outcome ++
    Json.memberIfSome "latency_ns" (fun n => .ofNat n.toNat) e.latency ++
    Json.memberIfSome "artifact_refs" .ofStrings e.artifacts ++
    Json.memberIfSome "details" Json.canonical e.details)

def line (e : LogEntry) : String := e.toJson.compact

end LogEntry

end PercentFormat
