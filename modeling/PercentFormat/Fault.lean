/-! # Faults

What can go wrong when bytes are written or files are read. -/

namespace PercentFormat

inductive Fault.Kind
  | writeZero
  | storageFull
  | brokenPipe
  | notFound
  | notADirectory
  | isADirectory
  | invalidData
  | invalidInput
  | invalidName
  | other
  deriving DecidableEq, Repr

/-- A fault has a kind, which programs look at, and a text, which people read. -/
structure Fault where
  kind : Fault.Kind
  message : String
  deriving DecidableEq, Repr

namespace Fault

def writeZero : Fault := ⟨.writeZero, "failed to write whole buffer"⟩

def notFound : Fault := ⟨.notFound, "No such file or directory (os error 2)"⟩

def notADirectory : Fault := ⟨.notADirectory, "Not a directory (os error 20)"⟩

def isADirectory : Fault := ⟨.isADirectory, "Is a directory (os error 21)"⟩

def nameTooLong : Fault := ⟨.invalidName, "File name too long (os error 36)"⟩

/-- A path with a zero character. -/
def zeroInPath : Fault := ⟨.invalidInput, "file name contained an unexpected NUL byte"⟩

def invalidText : Fault := ⟨.invalidData, "stream did not contain valid UTF-8"⟩

end Fault

end PercentFormat
