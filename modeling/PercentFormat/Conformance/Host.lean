import PercentFormat.Storage.FileTree

/-! # Hosts

What a program needs of its surroundings: files, two channels of text and a clock. -/

namespace PercentFormat

structure Host (m : Type → Type) where
  isDirectory : String → m Bool
  /-- The names in a directory, in any order. -/
  names : String → m (Except Fault (List String))
  read : String → m (Except Fault ByteArray)
  write : String → ByteArray → m (Except Fault Unit)
  print : String → m Unit
  notify : String → m Unit
  now : m String
  /-- Runs a computation and says how many nanoseconds it took. -/
  timed : {α : Type} → (Unit → α) → m (α × UInt64)

/-- A host that is only a state: a file tree and what was printed and told. -/
structure Memory where
  files : FileTree := {}
  printed : String := ""
  notices : List String := []

/-- The host of a state, with a clock that stands still. -/
def Host.memory (time : String) (elapsed : UInt64) : Host (StateM Memory) where
  isDirectory path := do return (← get).files.isDirectory path
  names path := do return (← get).files.names path
  read path := do return (← get).files.read path
  write path bytes := do
    let s ← get
    match s.files.write path bytes with
    | .ok files =>
      set { s with files := files }
      return .ok ()
    | .error fault => return .error fault
  print text := modify fun s => { s with printed := s.printed ++ text }
  notify line := modify fun s => { s with notices := s.notices ++ [line] }
  now := pure time
  timed f := pure (f (), elapsed)

end PercentFormat
