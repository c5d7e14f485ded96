import PercentFormat.Conformance.LogEntry

/-! # Writing logs

A log writer adds entries to the text of a log and numbers those that come without a trace id. -/

namespace PercentFormat

structure LogWriter where
  runId : String
  /-- A counter of 64 bits that never runs over: each number that it gives out adds a line to the
  text, and no text has room for so many. -/
  issued : Nat := 0
  content : String := ""

namespace LogWriter

/-- The trace id of a number; the number has three digits or more. -/
def traceId (runId : String) (n : Nat) : String :=
  "strfmt::" ++ runId ++ "::" ++ Decimal.padded 3 n

def emit (w : LogWriter) (e : LogEntry) : LogEntry × LogWriter :=
  if e.traceId = "" then
    let e := { e with traceId := traceId w.runId (w.issued + 1) }
    (e, ⟨w.runId, w.issued + 1, w.content ++ e.line ++ "\n"⟩)
  else (e, ⟨w.runId, w.issued, w.content ++ e.line ++ "\n"⟩)

def emitAll (w : LogWriter) : List LogEntry → List LogEntry × LogWriter
  | [] => ([], w)
  | e :: es =>
    let (e, w) := w.emit e
    let (es, w) := w.emitAll es
    (e :: es, w)

end LogWriter

end PercentFormat
