/-! # Numbers in a directive

Widths, precisions and argument indexes are decimal numbers up to `maxNumber`. Reading stops at the
first digit that goes beyond it. -/

namespace PercentFormat

/-- The largest width, precision or argument index. -/
def maxNumber : Nat := 1048575

namespace Numeral

def digitValue (c : Char) : Nat := c.toNat - '0'.toNat

/-- Reads on in a run of digits whose value so far is `n`; `none` when it grows too large. -/
def runFrom (n : Nat) : List Char → Option (Nat × List Char)
  | [] => some (n, [])
  | c :: cs =>
    if c.isDigit then
      let m := 10 * n + digitValue c
      if maxNumber < m then none else runFrom m cs
    else some (n, c :: cs)

/-- Reads a run of digits at the head of a text, if there is one. A number that is too large has
no value, and nothing of the text is left behind it. -/
def read (cs : List Char) : Option Nat × List Char :=
  match cs with
  | [] => (none, [])
  | c :: _ =>
    if c.isDigit then
      match runFrom 0 cs with
      | some (n, rest) => (some n, rest)
      | none => (none, [])
    else (none, cs)

/-- The value of a text that is a numeral from end to end. -/
def value? (cs : List Char) : Option Nat :=
  match read cs with
  | (some n, []) => some n
  | _ => none

theorem length_runFrom_le {n m : Nat} {cs rest : List Char} (h : runFrom n cs = some (m, rest)) :
    rest.length ≤ cs.length := by
  induction cs generalizing n with
  | nil => simp_all [runFrom]
  | cons c cs ih =>
    simp only [runFrom] at h
    split at h
    · split at h
      · simp at h
      · exact Nat.le_succ_of_le (ih h)
    · simp_all

theorem length_read_le (cs : List Char) : (read cs).2.length ≤ cs.length := by
  unfold read
  split
  · exact Nat.le_refl _
  · split
    · split
      · rename_i h
        exact length_runFrom_le h
      · simp
    · exact Nat.le_refl _

end Numeral

/-! ## Argument indexes -/

/-- What stands where an argument index may stand. A usable index is counted from zero. -/
inductive Bracket
  | absent
  | unusable (rest : List Char)
  | index (n : Nat) (rest : List Char)
  deriving DecidableEq, Repr

namespace Bracket

/-- Reads `[n]` at the head of a text. The bracket closes at the first `]`; whatever it holds
is skipped with it. A bracket that does not close, or that is empty and ends the text, is
skipped alone. -/
def read : List Char → Bracket
  | '[' :: cs =>
    if cs = [']'] then .unusable cs
    else
      match cs.dropWhile (· ≠ ']') with
      | [] => .unusable cs
      | _ :: rest =>
        match Numeral.value? (cs.takeWhile (· ≠ ']')) with
        | some (n + 1) => .index n rest
        | _ => .unusable rest
  | _ => .absent

def rest? : Bracket → Option (List Char)
  | .absent => none
  | .unusable rest => some rest
  | .index _ rest => some rest

theorem length_rest_lt {cs rest : List Char} (h : (read cs).rest? = some rest) :
    rest.length < cs.length := by
  unfold read at h
  split at h
  · rename_i cs
    split at h
    · simp_all [rest?]
    · split at h
      · simp_all [rest?]
      · rename_i heq
        have hd := (List.dropWhile_suffix (l := cs) (· ≠ ']')).length_le
        rw [heq] at hd
        simp only [List.length_cons] at hd ⊢
        split at h <;> simp only [rest?, Option.some.injEq] at h <;> subst h <;> omega
  · simp [rest?] at h

end Bracket

end PercentFormat
