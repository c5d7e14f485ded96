import PercentFormat.Conformance.Failure
import PercentFormat.Conformance.Fixture
import PercentFormat.Conformance.Host

/-! # Loading fixtures

Fixtures come from one file, or from all files of a directory that have the extension `json`. -/

namespace PercentFormat.FixtureSet

variable {m : Type → Type} [Monad m]

def readText (h : Host m) (path : String) : m (Except Fault String) := do
  match ← h.read path with
  | .error fault => return .error fault
  | .ok bytes =>
    match String.fromUTF8? bytes with
    | some s => return .ok s
    | none => return .error .invalidText

def load (h : Host m) (path : String) : ExceptT Failure m FixtureSet := do
  match ← ExceptT.lift (readText h path) with
  | .error fault => throw (.unreadable path fault)
  | .ok text =>
    match parse text with
    | .ok s => return s
    | .error cause => throw (.notFixtures path cause)

/-- The fixture files among the names in a directory, in order. -/
def fixtureNames (names : List String) : List String :=
  (names.filter fun name => Path.extension? name = some "json").mergeSort (decide <| · ≤ ·)

def pathsIn (h : Host m) (dir : String) : ExceptT Failure m (List String) := do
  match ← h.names dir with
  | .error fault => throw (.unreadable dir fault)
  | .ok names => return (fixtureNames names).map (Path.join dir)

/-- Loads all fixture files of a directory. The first one that cannot be loaded ends it. -/
def loadDirectory (h : Host m) (dir : String) : ExceptT Failure m (List FixtureSet) := do
  match ← (← pathsIn h dir).mapM (load h) with
  | [] => throw (.noFixtures dir)
  | sets => return sets

def loadAll (h : Host m) (path : String) : ExceptT Failure m (List FixtureSet) := do
  if ← h.isDirectory path then loadDirectory h path
  else return [← load h path]

end PercentFormat.FixtureSet
