import PercentFormat.Caching.Registry
import PercentFormat.Output.Pool

/-! # Formatting

A formatter looks templates up in its registry and renders them with buffers of its pool. -/

namespace PercentFormat

structure Formatter where
  registry : Registry := {}
  pool : Pool := {}

structure FormattedError where
  message : String
  deriving DecidableEq

namespace FormattedError

def text (e : FormattedError) : String := e.message

/-- As a fault it is of no particular kind. -/
def toFault (e : FormattedError) : Fault := ⟨.other, e.message⟩

end FormattedError

namespace Formatter

def lookup (f : Formatter) (format : String) : Template × Formatter :=
  let (c, registry) := f.registry.lookup format
  (c.template, { f with registry := registry })

def sprintfCompiled (f : Formatter) (t : Template) (args : List String) : String × Formatter :=
  let (s, pool) := f.pool.renderToString t args
  (s, { f with pool := pool })

def writeCompiled (f : Formatter) (t : Template) (args : List String) (sink : Sink) :
    Except Fault Nat × Delivery × Formatter :=
  let (result, d, pool) := f.pool.renderToSink t args sink
  (result, d, { f with pool := pool })

def sprintf (f : Formatter) (format : String) (args : List String) : String × Formatter :=
  let (t, f) := f.lookup format
  f.sprintfCompiled t args

def fprintf (f : Formatter) (format : String) (args : List String) (sink : Sink) :
    Except Fault Nat × Delivery × Formatter :=
  let (t, f) := f.lookup format
  f.writeCompiled t args sink

def errorf (f : Formatter) (format : String) (args : List String) : FormattedError × Formatter :=
  let (s, f) := f.sprintf format args
  (⟨s⟩, f)

def sprint (f : Formatter) (line : Bool) (args : List String) : String × Formatter :=
  let (s, pool) := f.pool.concatToString line args
  (s, { f with pool := pool })

def fprint (f : Formatter) (line : Bool) (args : List String) (sink : Sink) :
    Except Fault Nat × Delivery × Formatter :=
  let (result, d, pool) := f.pool.concatToSink line args sink
  (result, d, { f with pool := pool })

/-! ## Histories -/

inductive Call
  | sprintf (format : String) (args : List String)
  | errorf (format : String) (args : List String)
  | fprintf (format : String) (args : List String) (sink : Sink)
  | lookup (format : String)
  | setThreshold (t : Threshold)
  | purge

def apply (f : Formatter) : Call → Formatter
  | .sprintf format args => (f.sprintf format args).2
  | .errorf format args => (f.errorf format args).2
  | .fprintf format args sink => (f.fprintf format args sink).2.2
  | .lookup format => (f.lookup format).2
  | .setThreshold t => { f with registry := f.registry.setThreshold t }
  | .purge => { f with registry := f.registry.purge }

def run (f : Formatter) (calls : List Call) : Formatter := calls.foldl apply f

end Formatter

end PercentFormat
