import PercentFormat.Digest.Sha256
import PercentFormat.Json.Write

/-! # Artifacts

The index of a run lists the files that it wrote, each with its digest. -/

namespace PercentFormat

structure Artifact where
  path : String
  kind : String
  sha256 : String
  size : Option Nat := none
  deriving DecidableEq, Repr

namespace Artifact

def ofBytes (path kind : String) (bytes : ByteArray) : Artifact :=
  ⟨path, kind, Sha256.hex bytes, some bytes.size⟩

def toJson (a : Artifact) : Json :=
  .object ([("path", .string a.path), ("kind", .string a.kind), ("sha256", .string a.sha256)] ++
    match a.size with
    | none => []
    | some n => [("size_bytes", .ofNat n)])

end Artifact

structure ArtifactIndex where
  runId : String
  generated : String
  artifacts : List Artifact := []
  deriving DecidableEq, Repr

namespace ArtifactIndex

def add (i : ArtifactIndex) (a : Artifact) : ArtifactIndex :=
  { i with artifacts := i.artifacts ++ [a] }

def version : Nat := 1

def toJson (i : ArtifactIndex) : Json :=
  .object [("index_version", .ofNat version), ("run_id", .string i.runId),
    ("generated_utc", .string i.generated), ("artifacts", .array (i.artifacts.map Artifact.toJson))]

def text (i : ArtifactIndex) : String := i.toJson.pretty

end ArtifactIndex

end PercentFormat
