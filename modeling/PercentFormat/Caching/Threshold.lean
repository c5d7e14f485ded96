import PercentFormat.Text.Decimal
import PercentFormat.Unicode.WhiteSpace

/-! # Promotion thresholds

The threshold is the number of misses that a format must exceed before its template is cached.
Three thresholds have names. -/

namespace PercentFormat

structure Threshold where
  misses : UInt64
  deriving DecidableEq, Repr

namespace Threshold

def always : Threshold := ⟨0⟩

/-- Caches at the second miss. -/
def repetitions : Threshold := ⟨1⟩

def disabled : Threshold := ⟨18446744073709551615⟩

instance : Inhabited Threshold := ⟨always⟩

def isAlways (t : Threshold) : Bool := t = always

def isDisabled (t : Threshold) : Bool := t = disabled

/-- A decimal number of 64 bits, which a plus sign may precede. -/
def number? (cs : List Char) : Option UInt64 :=
  let digits := match cs with
    | '+' :: rest => rest
    | _ => cs
  match Decimal.value? digits with
  | some n => if n < UInt64.size then some n.toUInt64 else none
  | none => none

/-- Reads a name or a number, whatever the case of its letters and the white space around it. Any
other text means `always`. -/
def ofText (s : String) : Threshold :=
  let cs := (Unicode.trim s.toList).map Char.toLower
  if cs = "always".toList ∨ cs = "default".toList then always
  else if cs = "repetitions".toList ∨ cs = "repeat".toList then repetitions
  else if cs = "disabled".toList ∨ cs = "never".toList ∨ cs = "off".toList then disabled
  else
    match number? cs with
    | some n => ⟨n⟩
    | none => always

def text (t : Threshold) : String :=
  if t = always then "always"
  else if t = repetitions then "repetitions"
  else if t = disabled then "disabled"
  else Decimal.text t.misses.toNat

def ofSetting (setting : Option String) : Threshold :=
  match setting with
  | some s => ofText s
  | none => always

def compare (a b : Threshold) : Ordering := Ord.compare a.misses b.misses

end Threshold

end PercentFormat
