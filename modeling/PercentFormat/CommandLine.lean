import PercentFormat.Conformance.Verification
import PercentFormat.Template.Listing

/-! # The command line

Three commands: render a format, list its template, verify fixtures. Options are given as
`--name=value` or as `--name value`. -/

namespace PercentFormat

inductive Command
  | render (format : String) (args : List String)
  | compile (format : String)
  | verify (v : Verification)

inductive UsageError
  | noCommand
  | unknownCommand (name : String)
  | unexpected (word : String)
  | missing (option : String)
  | noValue (option : String)
  | repeated (option : String)
  | noNumber (option : String) (value : String)
  deriving DecidableEq, Repr

def UsageError.message : UsageError → String
  | .noCommand => "a command is required: render, compile or verify"
  | .unknownCommand name => "unknown command '" ++ name ++ "'"
  | .unexpected word => "unexpected argument '" ++ word ++ "'"
  | .missing option => "option '--" ++ option ++ "' is required"
  | .noValue option => "option '--" ++ option ++ "' needs a value"
  | .repeated option => "option '--" ++ option ++ "' is given more than once"
  | .noNumber option value => "option '--" ++ option ++ "' needs a number, not '" ++ value ++ "'"

namespace Command

/-! ## Reading options -/

/-- The name of an option and its value, if it stands in the same word. -/
def splitOption? (word : String) : Option (String × Option String) :=
  match word.toList with
  | '-' :: '-' :: cs =>
    match cs.span (· ≠ '=') with
    | (name, []) => some (String.ofList name, none)
    | (name, _ :: value) => some (String.ofList name, some (String.ofList value))
  | _ => none

/-- Options with their values. The names are taken from `known`. -/
def readOptions (known : List String) :
    List String → Except UsageError (List (String × String))
  | [] => .ok []
  | word :: rest =>
    match splitOption? word with
    | none => .error (.unexpected word)
    | some (name, value) =>
      if name ∉ known then .error (.unexpected word)
      else
        match value, rest with
        | some value, rest => (readOptions known rest).map ((name, value) :: ·)
        | none, value :: rest => (readOptions known rest).map ((name, value) :: ·)
        | none, [] => .error (.noValue name)

def valuesOf (name : String) (options : List (String × String)) : List String :=
  (options.filter (·.1 = name)).map (·.2)

def valueOf? (name : String) (options : List (String × String)) :
    Except UsageError (Option String) :=
  match valuesOf name options with
  | [] => .ok none
  | [value] => .ok (some value)
  | _ => .error (.repeated name)

def valueOf (name : String) (options : List (String × String)) : Except UsageError String := do
  match ← valueOf? name options with
  | some value => return value
  | none => throw (.missing name)

def readPasses : Option String → Except UsageError Nat
  | none => .ok 3
  | some value =>
    match Threshold.number? value.toList with
    | some n => .ok n.toNat
    | none => .error (.noNumber "passes" value)

/-- Reads the words of a command line. The word `--verbose` may stand anywhere. -/
def ofWords (words : List String) : Except UsageError Command :=
  match words.filter (· ≠ "--verbose") with
  | [] => throw .noCommand
  | "render" :: rest => do
    let options ← readOptions ["format", "arg"] rest
    return .render (← valueOf "format" options) (valuesOf "arg" options)
  | "compile" :: rest => do
    return .compile (← valueOf "format" (← readOptions ["format"] rest))
  | "verify" :: rest => do
    let options ← readOptions ["fixture", "report", "log", "threshold", "passes", "timestamp"] rest
    return .verify {
      fixture := ← valueOf "fixture" options
      report := ← valueOf? "report" options
      log := ← valueOf? "log" options
      threshold := ← valueOf? "threshold" options
      passes := ← readPasses (← valueOf? "passes" options)
      timestamp := ← valueOf? "timestamp" options }
  | name :: _ => throw (.unknownCommand name)

/-! ## Running commands -/

variable {m : Type → Type} [Monad m]

def run (h : Host m) (f : Formatter) : Command → ExceptT Failure m Unit
  | .render format args => h.print ((f.sprintf format args).1 ++ "\n")
  | .compile format => h.print ((Template.compile format).listing.text ++ "\n")
  | .verify v => v.run h

end Command

def exitStatus (result : Except Failure Unit) : UInt32 :=
  match result with
  | .ok () => 0
  | .error _ => 1

end PercentFormat
