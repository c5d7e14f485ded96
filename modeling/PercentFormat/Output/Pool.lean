import PercentFormat.Output.Rendering
import PercentFormat.Output.Sink

/-! # A pool of buffers

Buffers that are given back are kept for the next renderings, the last one first. A buffer that
grew too large gives its room back, and a full pool lets buffers go. -/

namespace PercentFormat

/-- Three counters of 64 bits. -/
structure Pool.Counts where
  acquired : UInt64 := 0
  /-- Buffers handed out that had been used before. -/
  reused : UInt64 := 0
  /-- Buffers whose room was too large to keep. -/
  oversized : UInt64 := 0
  deriving DecidableEq, Repr

structure Pool where
  idle : List Buffer := []
  counts : Pool.Counts := {}

namespace Pool

/-! ## What the counters show -/

def acquired (p : Pool) : Nat := p.counts.acquired.toNat

def reused (p : Pool) : Nat := p.counts.reused.toNat

def oversized (p : Pool) : Nat := p.counts.oversized.toNat

/-! ## Buffers -/

def maxRetained : Nat := 16384

def maxIdle : Nat := 64

def acquire (p : Pool) : Buffer × Pool :=
  match p.idle with
  | [] => (.empty, { p with counts.acquired := p.counts.acquired + 1 })
  | b :: rest =>
    (b, { p with
      idle := rest
      counts.acquired := p.counts.acquired + 1
      counts.reused := p.counts.reused + 1 })

/-- Empties a buffer and keeps it, if the pool has room for it. -/
def release (p : Pool) (b : Buffer) : Pool :=
  let large := maxRetained < b.capacity
  let b := if large then .empty else b.clear
  { p with
    idle := if p.idle.length < maxIdle then b :: p.idle else p.idle
    counts.oversized := if large then p.counts.oversized + 1 else p.counts.oversized }

/-! ## Renderings -/

/-- Runs edits on a pooled buffer and hands out the text. -/
def collect (p : Pool) (es : List Edit) : String × Pool :=
  let (b, p) := p.acquire
  let b := b.applyAll es
  (b.text, p.release b)

def deliver (p : Pool) (es : List Edit) (sink : Sink) : Except Fault Nat × Delivery × Pool :=
  let (b, p) := p.acquire
  let b := b.applyAll es
  let d := sink.writeAll b.bytes
  (d.result b.size, d, p.release b)

/-- The text of a rendering. Without arguments a template that is empty or a single literal needs
no buffer. -/
def renderToString (p : Pool) (t : Template) (args : List String) : String × Pool :=
  if args.isEmpty then
    if t.isEmpty then ("", p)
    else
      match t.asLiteral with
      | some s => (s, p)
      | none => p.collect (t.edits args)
  else p.collect (t.edits args)

def renderToSink (p : Pool) (t : Template) (args : List String) (sink : Sink) :
    Except Fault Nat × Delivery × Pool :=
  p.deliver (t.edits args) sink

/-! ## Arguments one after the other -/

/-- Arguments with a space between each two. -/
def spacedArgs : List String → List Edit
  | [] => []
  | [a] => [.text a]
  | a :: as => .text a :: .char ' ' :: spacedArgs as

/-- Arguments one after the other; as a line they are set apart by spaces and end in a newline. -/
def concatEdits (line : Bool) (args : List String) : List Edit :=
  if line then spacedArgs args ++ [.char '\n'] else args.map .text

/-- The text of arguments one after the other. None, or a single one, needs no buffer. -/
def concatToString (p : Pool) (line : Bool) (args : List String) : String × Pool :=
  match args, line with
  | [], true => ("\n", p)
  | [], false => ("", p)
  | [a], false => (a, p)
  | _, _ => p.collect (concatEdits line args)

def concatToSink (p : Pool) (line : Bool) (args : List String) (sink : Sink) :
    Except Fault Nat × Delivery × Pool :=
  p.deliver (concatEdits line args) sink

end Pool

end PercentFormat
