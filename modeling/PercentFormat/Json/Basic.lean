import PercentFormat.Number.Double

/-! # JSON values

An object is the list of its members as they were written. Its canonical form has every name once,
in the order of code points, with the value that was written last. -/

namespace PercentFormat

/-- A number is an integer of 64 bits, signed or not, or else a double. -/
inductive Json.Number
  | integer (n : Int)
  | decimal (x : Double)
  deriving DecidableEq, Repr

inductive Json
  | null
  | bool (b : Bool)
  | number (n : Json.Number)
  | string (s : String)
  | array (items : List Json)
  | object (members : List (String × Json))

namespace Json

instance : Inhabited Json := ⟨null⟩

/-- The integers that keep their value as numbers. -/
def inRange (n : Int) : Prop := -9223372036854775808 ≤ n ∧ n ≤ 18446744073709551615

instance (n : Int) : Decidable (inRange n) := inferInstanceAs (Decidable (_ ∧ _))

def ofNat (n : Nat) : Json := .number (.integer n)

def ofStrings (ss : List String) : Json := .array (ss.map .string)

/-- Sets a member, keeping the names in order and each name once. -/
def setMember (name : String) (value : Json) : List (String × Json) → List (String × Json)
  | [] => [(name, value)]
  | (n, v) :: rest =>
    if name < n then (name, value) :: (n, v) :: rest
    else if name = n then (name, value) :: rest
    else (n, v) :: setMember name value rest

mutual

/-- The value with all its objects in canonical form. -/
def canonical : Json → Json
  | .array items => .array (canonicalItems items)
  | .object members => .object (canonicalMembers [] members)
  | .null => .null
  | .bool b => .bool b
  | .number n => .number n
  | .string s => .string s

def canonicalItems : List Json → List Json
  | [] => []
  | x :: xs => canonical x :: canonicalItems xs

def canonicalMembers (done : List (String × Json)) :
    List (String × Json) → List (String × Json)
  | [] => done
  | (name, value) :: rest => canonicalMembers (setMember name (canonical value) done) rest

end

def get? (name : String) : Json → Option Json
  | .object members => members.lookup name
  | _ => none

def string? : Json → Option String
  | .string s => some s
  | _ => none

end Json

end PercentFormat
