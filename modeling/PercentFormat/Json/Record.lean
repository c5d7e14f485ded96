import PercentFormat.Json.Read
import PercentFormat.Json.Write

/-! # Records in JSON

A record is an object with known fields, or an array of the fields in order. It is read from an
outline, in the order of the text, up to the first fault. Values of other members are passed over:
they only have to keep to the grammar. -/

namespace PercentFormat.Json

/-- Why a text gives no record: it is no JSON, or JSON of another shape. -/
inductive Failure
  | malformed
  | mismatched
  deriving DecidableEq, Repr

/-! ## Simple shapes -/

/-- What is wrong with a value that has not the shape that is asked for. -/
def Outline.failure : Outline → Failure
  | .broken => .malformed
  | .number none => .malformed
  | .string none => .malformed
  | _ => .mismatched

def asString : Outline → Except Failure String
  | .string (some s) => .ok s
  | o => .error o.failure

def asBool : Outline → Except Failure Bool
  | .bool b => .ok b
  | o => .error o.failure

def asNat : Outline → Except Failure Nat
  | .number (some (.integer n)) => if 0 ≤ n ∧ inRange n then .ok n.toNat else .error .mismatched
  | o => .error o.failure

def asNamed {α : Type} (ofName? : String → Option α) (o : Outline) : Except Failure α := do
  match ofName? (← asString o) with
  | some a => .ok a
  | none => .error .mismatched

def asValue (o : Outline) : Except Failure Json :=
  match o.value? Outline.maxDepth with
  | some j => .ok j
  | none => .error .malformed

def asList {α : Type} (read : Outline → Except Failure α) : Outline → Except Failure (List α)
  | .array items => items.mapM read
  | o => .error o.failure

/-- A value, or null for none. -/
def asOption {α : Type} (read : Outline → Except Failure α) :
    Outline → Except Failure (Option α)
  | .null => .ok none
  | o => (read o).map some

/-! ## Fields -/

/-- Whether a field may be missing. One with a default may be missing in both forms of a record,
an optional one in an object alone. -/
inductive Presence
  | required
  | optional
  | defaulted
  deriving DecidableEq

/-- A field of records of a type, which reading sets. A field that is missing is left as it is. -/
structure Field (α : Type) where
  name : String
  presence : Presence
  set : α → Outline → Except Failure α

namespace Field

variable {α β : Type}

/-- A field with a reader for its value. -/
def reading (presence : Presence) (name : String) (read : Outline → Except Failure β)
    (set : α → β → α) : Field α where
  name := name
  presence := presence
  set a o := (read o).map (set a)

def required (name : String) (read : Outline → Except Failure β) (set : α → β → α) : Field α :=
  reading .required name read set

/-- An optional field may be null. -/
def optional (name : String) (read : Outline → Except Failure β) (set : α → Option β → α) :
    Field α :=
  reading .optional name (asOption read) set

def defaulted (name : String) (read : Outline → Except Failure β) (set : α → β → α) : Field α :=
  reading .defaulted name read set

/-- Whether all fields are there that must not be missing. -/
def areComplete (fs : List (Field α)) (seen : List String) : Bool :=
  fs.all fun f => f.presence != .required || seen.contains f.name

/-- Sets the fields that the members of an object give. No field must be given twice. -/
def setMembers (fs : List (Field α)) (seen : List String) (a : α) :
    List (Option String × Outline) → Except Failure α
  | [] => if areComplete fs seen then .ok a else .error .mismatched
  | (none, _) :: _ => .error .malformed
  | (some name, o) :: ms =>
    match fs.find? (·.name = name) with
    | none => if o.isIntact then setMembers fs seen a ms else .error .malformed
    | some f =>
      if seen.contains name then .error .mismatched
      else
        match f.set a o with
        | .ok a => setMembers fs (name :: seen) a ms
        | .error e => .error e

/-- Sets fields by their position. -/
def setItems (a : α) : List (Field α) → List Outline → Except Failure α
  | [], [] => .ok a
  | [], _ :: _ => .error .malformed
  | f :: fs, [] => if f.presence = .defaulted then setItems a fs [] else .error .mismatched
  | f :: fs, o :: os =>
    match f.set a o with
    | .ok a => setItems a fs os
    | .error e => .error e

end Field

/-- Reads a record by setting its fields in a blank one. -/
def asRecord {α : Type} (fs : List (Field α)) (blank : α) : Outline → Except Failure α
  | .object members => Field.setMembers fs [] blank members
  | .array items => Field.setItems blank fs items
  | o => .error o.failure

def parseAs {α : Type} (read : Outline → Except Failure α) (text : String) : Except Failure α :=
  match outlineOf text.toList with
  | (o, ended) =>
    match read o with
    | .ok a => if ended then .ok a else .error .malformed
    | .error e => .error e

/-! ## Writing records -/

/-- A member that is left out when it has no value. -/
def memberIfSome {α : Type} (name : String) (write : α → Json) :
    Option α → List (String × Json)
  | none => []
  | some a => [(name, write a)]

def ofOption {α : Type} (write : α → Json) : Option α → Json
  | none => .null
  | some a => write a

end PercentFormat.Json
