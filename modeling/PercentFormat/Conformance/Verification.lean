import PercentFormat.Conformance.Artifact
import PercentFormat.Conformance.Loading
import PercentFormat.Conformance.LogCheck
import PercentFormat.Conformance.LogWriter
import PercentFormat.Conformance.Report
import PercentFormat.Conformance.Runner

/-! # Verification

A verification runs all fixtures under one or more thresholds and sums the verdicts up. On request
it writes a report and keeps a log, and lists what it wrote in an index. It succeeds when every case
passed. -/

namespace PercentFormat

structure Verification where
  /-- A fixture file, or a directory of them. -/
  fixture : String
  /-- Where the report goes; a copy in JSON goes next to it. -/
  report : Option String := none
  /-- Where the log goes; the index goes next to it. -/
  log : Option String := none
  threshold : Option String := none
  passes : Nat := 3
  timestamp : Option String := none

namespace Verification

variable {m : Type → Type} [Monad m]

/-- The thresholds of a run: the given one, or all that have names. -/
def thresholds (v : Verification) : List Threshold :=
  match v.threshold with
  | some s => [.ofText s]
  | none => [.always, .repetitions, .disabled]

/-- The names of thresholds with a plus sign between each two. -/
def label (ts : List Threshold) : String := String.intercalate "+" (ts.map Threshold.text)

def runName (timestamp : String) : String :=
  "verify-" ++ String.ofList (timestamp.toList.map fun c => if c = ':' ∨ c = '.' then '-' else c)

def title : String := "strfmt Conformance Report"

/-! ## Entries of the log -/

def startEntry (v : Verification) (time : String) (setCount : Nat) : LogEntry where
  timestamp := time
  traceId := ""
  level := .info
  event := "verify_start"
  threshold := some (label v.thresholds)
  details := some (.object [("fixture_sets", .ofNat setCount), ("passes", .ofNat v.passes)])

/-- What is said of a case; when it failed, what was expected and what came. -/
def caseEntry (time : String) (t : Threshold) (verdict : Verdict) : LogEntry where
  timestamp := time
  traceId := ""
  level := if verdict.passed then .debug else .error
  event := "case_verified"
  family := some verdict.family
  case := some verdict.caseName
  threshold := some t.text
  outcome := some (.ofBool verdict.passed)
  details :=
    if verdict.passed then none
    else some (.object [("expected", .string verdict.expected), ("actual", .string verdict.actual)])

def setEntry (time : String) (t : Threshold) (s : FixtureSet) (elapsed : UInt64) : LogEntry where
  timestamp := time
  traceId := ""
  level := .info
  event := "set_verified"
  family := some s.family
  case := some "*"
  threshold := some t.text
  latency := some elapsed

def endEntry (v : Verification) (time : String) (passed : Bool) (artifacts : List String) :
    LogEntry where
  timestamp := time
  traceId := ""
  level := .info
  event := "verify_end"
  threshold := some (label v.thresholds)
  outcome := some (.ofBool passed)
  artifacts := some artifacts

/-! ## Running the cases -/

/-- The verdicts so far, in the order in which the cases ran, and the log so far. -/
structure Progress where
  verdicts : List Verdict
  log : LogWriter

def runSet (h : Host m) (t : Threshold) (s : FixtureSet) (p : Progress × Runner) :
    m (Progress × Runner) := do
  let ((verdicts, runner), elapsed) ← h.timed fun _ => p.2.run s
  -- The entries of a set share one reading of the clock.
  let time ← h.now
  let entries := verdicts.map (caseEntry time t) ++ [setEntry time t s elapsed]
  return (⟨p.1.verdicts ++ verdicts, (p.1.log.emitAll entries).2⟩, runner)

def runSets (h : Host m) (v : Verification) (sets : List FixtureSet) (p : Progress)
    (t : Threshold) : m Progress := do
  let p ← sets.foldlM (fun p s => runSet h t s p) (p, Runner.new "fixture-verify" t v.passes)
  return p.1

def runAll (h : Host m) (v : Verification) (sets : List FixtureSet) (log : LogWriter) :
    m Progress := do
  let log := (log.emit (startEntry v (← h.now) sets.length)).2
  v.thresholds.foldlM (runSets h v sets) ⟨[], log⟩

def reportOn (v : Verification) (timestamp : String) (verdicts : List Verdict) : Report where
  title := title
  threshold := label v.thresholds
  timestamp := timestamp
  summary := .ofResults (verdicts.mergeSort Verdict.before)

/-! ## Writing files -/

def save (h : Host m) (path text : String) : ExceptT Failure m Unit := do
  match ← h.write path text.toUTF8 with
  | .ok () => return
  | .error fault => throw (.unwritable fault)

/-- The index with a file added, as it is stored now. -/
def indexFile (h : Host m) (path kind : String) (index : ArtifactIndex) :
    ExceptT Failure m ArtifactIndex := do
  match ← h.read path with
  | .ok bytes => return index.add (.ofBytes path kind bytes)
  | .error fault => throw (.unwritable fault)

def saveReport (h : Host m) (path : String) (r : Report) (index : ArtifactIndex) :
    ExceptT Failure m ArtifactIndex := do
  h.notify ("Writing report to " ++ path)
  let jsonPath := Path.withExtension path "json"
  save h path r.markdown
  save h jsonPath r.text
  indexFile h path "report" index >>= indexFile h jsonPath "report"

/-- Checks the log as it is stored, and writes the index. -/
def saveIndex (h : Host m) (path : String) (index : ArtifactIndex) : ExceptT Failure m Unit := do
  match ← ExceptT.lift (FixtureSet.readText h path) with
  | .error fault => throw (.unwritable fault)
  | .ok content =>
    match Log.errors content with
    | [] =>
      let index ← indexFile h path "log" index
      let indexPath := Path.withExtension path "index.json"
      save h indexPath index.text
      h.notify ("Wrote artifact index to " ++ indexPath)
    | e :: es =>
      (e :: es).forM fun e => h.notify ("  " ++ e.text)
      throw (.invalidLog path (es.length + 1))

/-- Stores the log, where one is kept. -/
def saveLog (h : Host m) (v : Verification) (w : LogWriter) : ExceptT Failure m Unit :=
  match v.log with
  | some path => save h path w.content
  | none => return

/-- The steps behind the run of the cases. The log is stored also when the report cannot be. -/
def finish (h : Host m) (v : Verification) (r : Report) (log : LogWriter) :
    ExceptT Failure m Unit := do
  let index : ArtifactIndex := { runId := log.runId, generated := ← h.now }
  let index ← match v.report with
    | none => pure index
    | some path =>
      tryCatch (saveReport h path r index) fun failure => do
        saveLog h v log
        throw failure
  let passed := r.summary.allPassed
  let last := endEntry v (← h.now) passed (index.artifacts.map Artifact.path)
  saveLog h v (log.emit last).2
  match v.log with
  | some path => saveIndex h path index
  | none => pure ()
  if !passed then throw (.failedCases r.summary.failed r.summary.total)

def countsLine (s : Summary) : String :=
  "Verification complete: total=" ++ Decimal.text s.total ++ ", passed=" ++
    Decimal.text s.passed ++ ", failed=" ++ Decimal.text s.failed

def run (h : Host m) (v : Verification) : ExceptT Failure m Unit := do
  h.notify ("Verifying against fixtures in " ++ v.fixture)
  let sets ← FixtureSet.loadAll h v.fixture
  let timestamp ← match v.timestamp with
    | some t => pure t
    | none => h.now
  let log : LogWriter := { runId := runName timestamp }
  saveLog h v log
  let p ← ExceptT.lift (runAll h v sets log)
  let r := reportOn v timestamp p.verdicts
  h.notify (countsLine r.summary)
  finish h v r p.log

end Verification

end PercentFormat
