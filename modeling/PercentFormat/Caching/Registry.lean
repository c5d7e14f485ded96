import PercentFormat.Caching.Cache
import PercentFormat.Caching.Counters
import PercentFormat.Caching.Metrics
import PercentFormat.Caching.Threshold
import PercentFormat.Template.Compile

/-! # Looking templates up

A registry compiles formats and caches the templates. A format that is missed often enough for
the threshold is promoted into the cache. -/

namespace PercentFormat

/-- A template as an object: the serial number tells it from equal templates made at other times. -/
structure Compiled where
  serial : Nat
  template : Template
  deriving DecidableEq

/-- How a registry compiles. While compilation number `n` of a format is under way, someone else
may put the template `rival n format` into the cache under the same format. -/
structure Compiler where
  compile : String → Template
  rival : Nat → String → Option Template

namespace Compiler

def standard : Compiler := ⟨Template.compile, fun _ _ => none⟩

/-- Compiles formats, someone else always being faster. -/
def overtaken : Compiler := ⟨Template.compile, fun _ format => some (Template.compile format)⟩

/-- Takes each percent sign for itself. -/
def verbatim : Compiler :=
  ⟨fun format => Template.compile (Template.escape format), fun _ _ => none⟩

end Compiler

structure Registry where
  compiler : Compiler := .standard
  threshold : Threshold := .always
  cache : Cache Compiled := {}
  counters : Counters := {}
  metrics : Metrics := {}
  /-- Objects made so far. -/
  made : Nat := 0

namespace Registry

def count (r : Registry) (m : Metric) : Registry := { r with metrics := r.metrics.count m }

def make (r : Registry) (t : Template) : Compiled × Registry :=
  (⟨r.made, t⟩, { r with made := r.made + 1 })

/-- Puts a template into the cache unless its format has one, and says whether it did. -/
def insert (r : Registry) (format : String) (t : Template) : Bool × Registry :=
  let (c, r) := r.make t
  let (new, cache) := r.cache.insert format c
  (new, { r with cache := cache })

/-- Compiles a format, while someone else may cache it. -/
def compile (r : Registry) (format : String) : Compiled × Registry :=
  let r := match r.compiler.rival r.made format with
    | some t => (r.insert format t).2
    | none => r
  r.make (r.compiler.compile format)

/-- Puts a compiled format into the cache and forgets its misses. With `always` it does not look
for any, though there may be some from an earlier threshold. -/
def promote (r : Registry) (format : String) (c : Compiled) : Registry :=
  let (new, cache) := r.cache.insert format c
  let r := { r with cache := cache }.count (if new then .promotions else .duplicatePromotions)
  if r.threshold.isAlways then r else { r with counters := r.counters.erase format }

/-- Counts a miss and decides whether it is one too many. With `always` nothing is counted. -/
def miss (r : Registry) (format : String) : Bool × Registry :=
  if r.threshold.isAlways then (true, r)
  else
    let (n, counters) := r.counters.bump format
    (decide (r.threshold.misses < n), { r with counters := counters })

def lookup (r : Registry) (format : String) : Compiled × Registry :=
  let r := r.count .lookups
  match r.cache.get? format with
  | some c => (c, r.count .hits)
  | none =>
    let (c, r) := (r.count .misses).compile format
    if r.threshold.isDisabled then (c, r)
    else
      let (due, r) := r.miss format
      (c, if due then r.promote format c else r)

/-- Changes the threshold; what is cached stays cached. -/
def setThreshold (r : Registry) (t : Threshold) : Registry := { r with threshold := t }

def purge (r : Registry) : Registry :=
  { r with cache := r.cache.clear, counters := r.counters.clear }

def bump (r : Registry) (format : String) : UInt64 × Registry :=
  let (n, counters) := r.counters.bump format
  (n, { r with counters := counters })

/-! ## Histories -/

inductive Event
  | lookup (format : String)
  | setThreshold (t : Threshold)
  | purge
  | bump (format : String)
  | insert (format : String) (t : Template)

def apply (r : Registry) : Event → Registry
  | .lookup format => (r.lookup format).2
  | .setThreshold t => r.setThreshold t
  | .purge => r.purge
  | .bump format => (r.bump format).2
  | .insert format t => (r.insert format t).2

def run (r : Registry) (events : List Event) : Registry := events.foldl apply r

end Registry

end PercentFormat
