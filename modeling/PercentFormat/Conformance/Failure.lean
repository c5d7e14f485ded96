import PercentFormat.Fault
import PercentFormat.Json.Record

/-! # Failures of a conformance run -/

namespace PercentFormat

inductive Failure
  | unreadable (path : String) (fault : Fault)
  | notFixtures (path : String) (cause : Json.Failure)
  | noFixtures (path : String)
  | invalidLog (path : String) (invalid : Nat)
  | failedCases (failed total : Nat)
  | unwritable (fault : Fault)
  deriving DecidableEq, Repr

def Failure.message : Failure → String
  | .unreadable path fault => "failed reading " ++ path ++ ": " ++ fault.message
  | .notFixtures path _ => "invalid fixture JSON in " ++ path
  | .noFixtures path => "no fixture JSON files found in " ++ path
  | .invalidLog path invalid => Decimal.text invalid ++ " malformed entries in run log " ++ path
  | .failedCases failed total =>
    Decimal.text failed ++ " of " ++ Decimal.text total ++ " conformance cases failed"
  | .unwritable fault => fault.message

end PercentFormat
