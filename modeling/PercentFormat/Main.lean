import PercentFormat.CommandLine
import Std.Time.Format

/-! # The program

Connects the command line to the files, the standard channels and the clock of the machine. -/

namespace PercentFormat

def Fault.ofError (isDirectory : Bool) : IO.Error → Fault
  | .noFileOrDirectory .. => .notFound
  | .inappropriateType .. => if isDirectory then .isADirectory else .notADirectory
  | e => ⟨.other, toString e⟩

namespace Host

def machineIsDirectory (path : String) : IO Bool := do
  try
    let place ← IO.FS.realPath path
    place.isDir
  catch _ => return false

/-- Runs an action on a path, and gives the fault in place of an error. -/
def orFault {α : Type} (path : String) (action : IO α) : IO (Except Fault α) := do
  try
    return .ok (← action)
  catch e => return .error (.ofError (← machineIsDirectory path) e)

def machineNames (path : String) : IO (List String) := do
  let place ← IO.FS.realPath path
  let entries ← place.readDir
  return entries.toList.map (·.fileName)

/-- The time of day in UTC, to the millisecond. -/
def machineTime : IO String := do
  let time ← Std.Time.Timestamp.now
  return (Std.Time.DateTime.ofTimestampWithZone time .UTC).format "uuuu-MM-dd'T'HH:mm:ss.SSS'Z'"

def machineTimed {α : Type} (f : Unit → α) : IO (α × UInt64) := do
  let before ← IO.monoNanosNow
  let result ← IO.lazyPure f
  let after ← IO.monoNanosNow
  return (result, (after - before).toUInt64)

def machine : Host IO where
  isDirectory := machineIsDirectory
  names path := orFault path (machineNames path)
  read path := orFault path (IO.FS.readBinFile path)
  write path bytes := orFault path (IO.FS.writeBinFile path bytes)
  print text := IO.print text
  notify line := IO.eprintln line
  now := machineTime
  timed := machineTimed

end Host

end PercentFormat

open PercentFormat

def main (words : List String) : IO UInt32 := do
  match Command.ofWords words with
  | .error e =>
    IO.eprintln ("error: " ++ e.message)
    return 2
  | .ok command =>
    let threshold := Threshold.ofSetting (← IO.getEnv "STRFMT_CACHE_THRESHOLD")
    let result ← (command.run Host.machine { registry := { threshold := threshold } }).run
    if let .error failure := result then
      IO.eprintln ("Error: " ++ failure.message)
    return exitStatus result
