import PercentFormat.Proofs.Json.Integers
import PercentFormat.Proofs.Json.Strings

/-!
# How texts of JSON begin

The first character of a text shows of what kind its value is, and is nothing that stands between
values.
-/

namespace PercentFormat.Json

/-- Every number in the value is an integer, of any size. -/
inductive Exact : Json → Prop
  | null : Exact .null
  | bool (b : Bool) : Exact (.bool b)
  | integer (n : Int) : Exact (.number (.integer n))
  | string (s : String) : Exact (.string s)
  | array {js : List Json} (items : ∀ j ∈ js, Exact j) : Exact (.array js)
  | object {ms : List (String × Json)} (members : ∀ m ∈ ms, Exact m.2) : Exact (.object ms)

/-! ## The first character -/

/-- The first character of a text, with a zero for all that numbers begin with. -/
def signOf (c : Char) : Char := if c = '-' ∨ c.isDigit = true then '0' else c

def opening : Json → Char
  | .null => 'n'
  | .bool true => 't'
  | .bool false => 'f'
  | .number _ => '0'
  | .string _ => '"'
  | .array _ => '['
  | .object _ => '\x7b'

/-- Values of the same kind. Null and the truth values are what they begin with. -/
inductive Alike : Json → Json → Prop
  | null : Alike .null .null
  | bool (b : Bool) : Alike (.bool b) (.bool b)
  | number (m n : Number) : Alike (.number m) (.number n)
  | string (s t : String) : Alike (.string s) (.string t)
  | array (js ks : List Json) : Alike (.array js) (.array ks)
  | object (ms ns : List (String × Json)) : Alike (.object ms) (.object ns)

theorem alike_of_opening {j k : Json} (h : j.opening = k.opening) : Alike j k := by
  rcases j with _ | (_ | _) | _ | _ | _ | _ <;> rcases k with _ | (_ | _) | _ | _ | _ | _ <;>
    first
      | constructor
      | simp [opening] at h

variable {l : Layout} {i : Nat} {j : Json}

theorem Exact.write_eq_cons (h : Exact j) :
    ∃ c cs, write l i j = c :: cs ∧ signOf c = j.opening := by
  cases h with
  | null => exact ⟨'n', _, by rw [write], if_neg (by decide)⟩
  | bool b => cases b <;> exact ⟨_, _, by rw [write], by decide⟩
  | integer n =>
    obtain ⟨c, cs, hcs, hc⟩ := Reader.writeInteger_eq_cons n
    exact ⟨c, cs, by rw [write, writeNumber, hcs], if_pos hc⟩
  | string s => exact ⟨'"', _, by rw [write, writeString]; rfl, if_neg (by decide)⟩
  | @array js => cases js <;> exact ⟨'[', _, by rw [write], if_neg (by decide)⟩
  | @object ms => cases ms <;> exact ⟨'\x7b', _, by rw [write], if_neg (by decide)⟩

/-- No value begins with what stands between values. -/
theorem opening_visible {c : Char} (h : signOf c = j.opening) :
    Reader.isBlank c = false ∧ c ≠ ']' := by
  have hbetween : [' ', '\t', '\n', '\r', ']'].all (fun c =>
      ['n', 't', 'f', '0', '"', '[', '\x7b'].all fun o => signOf c != o) = true := by decide
  have hopening : j.opening ∈ ['n', 't', 'f', '0', '"', '[', '\x7b'] := by
    rcases j with _ | (_ | _) | _ | _ | _ | _ <;> simp [opening]
  have hfree : c ∉ [' ', '\t', '\n', '\r', ']'] := by
    intro hc
    have hne := List.all_eq_true.mp (List.all_eq_true.mp hbetween c hc) _ hopening
    exact bne_iff_ne.mp hne h
  simp only [List.mem_cons, List.not_mem_nil, or_false, not_or] at hfree
  simp [Reader.isBlank, hfree]

end PercentFormat.Json
