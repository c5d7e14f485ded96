import PercentFormat.Output.Pool

/-! # Buffers on loan

Steps on a buffer, and steps on a pool whose buffers are lent out under names. -/

namespace PercentFormat

inductive Buffer.Step
  | edit (e : Edit)
  | clear
  | copy
  | render (t : Template) (args : List String)

namespace Buffer

def step (b : Buffer) : Step → Buffer
  | .edit e => b.apply e
  | .clear => b.clear
  | .copy => b.copy
  | .render t args => t.renderInto args b

def run (b : Buffer) (steps : List Step) : Buffer := steps.foldl step b

/-- Adds raw bytes as a sink would, and says how many were taken: always all. -/
def write (b : Buffer) (bytes : ByteArray) : Buffer × Nat := (b.apply (.raw bytes), bytes.size)

end Buffer

/-- A pool and the buffers that it has lent, each under a name of its own. -/
structure Lending where
  pool : Pool := {}
  loans : List (String × Buffer) := []

namespace Lending

inductive Step
  | acquire (name : String)
  | release (name : String)
  | takeText (name : String)
  | use (name : String) (steps : List Buffer.Step)
  | renderToString (t : Template) (args : List String)
  | renderToSink (t : Template) (args : List String) (sink : Sink)

inductive Answer
  | loan (b : Option Buffer)
  | found (yes : Bool)
  | text (s : Option String)
  | delivered (result : Except Fault Nat) (d : Delivery)

def loan? (l : Lending) (name : String) : Option Buffer := l.loans.lookup name

/-- The lending without the loan under a name, its buffer given back. -/
def giveBack (l : Lending) (name : String) : Lending :=
  match l.loan? name with
  | none => l
  | some b => ⟨l.pool.release b, l.loans.filter (·.1 ≠ name)⟩

def replace (l : Lending) (name : String) (b : Buffer) : Lending :=
  { l with loans := l.loans.map fun loan => if loan.1 = name then (name, b) else loan }

/-- A name that has a loan already gives it back, but only when it has the new one. -/
def step (l : Lending) : Step → Answer × Lending
  | .acquire name =>
    let (b, pool) := l.pool.acquire
    let l := { l with pool := pool }.giveBack name
    (.loan (some b), { l with loans := (name, b) :: l.loans })
  | .release name => (.found (l.loan? name).isSome, l.giveBack name)
  | .takeText name => (.text ((l.loan? name).map Buffer.text), l.giveBack name)
  | .use name steps =>
    match l.loan? name with
    | none => (.loan none, l)
    | some b =>
      let b := b.run steps
      (.loan (some b), l.replace name b)
  | .renderToString t args =>
    let (s, pool) := l.pool.renderToString t args
    (.text (some s), { l with pool := pool })
  | .renderToSink t args sink =>
    let (result, d, pool) := l.pool.renderToSink t args sink
    (.delivered result d, { l with pool := pool })

def run (l : Lending) (steps : List Step) : Lending := steps.foldl (fun l s => (l.step s).2) l

end Lending

end PercentFormat
