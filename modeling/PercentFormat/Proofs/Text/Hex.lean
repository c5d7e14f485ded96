import Mathlib.Algebra.GroupWithZero.Nat
import PercentFormat.Text.Hex

/-!
# Reading hexadecimal digits

A number is read back from its digits when there are enough of them, and numerals of any length
are told apart.
-/

namespace PercentFormat.Hex

/-- Reads a number of exactly `width` digits. -/
def read? : Nat → List Char → Option (Nat × List Char)
  | 0, cs => some (0, cs)
  | width + 1, cs =>
    match read? width cs with
    | some (n, c :: rest) => (value? c).map fun d => (16 * n + d, rest)
    | _ => none

theorem length_read_le {width n : Nat} {cs rest : List Char}
    (h : read? width cs = some (n, rest)) : rest.length ≤ cs.length := by
  induction width generalizing n rest with
  | zero =>
    simp only [read?, Option.some.injEq, Prod.mk.injEq] at h
    exact h.2 ▸ Nat.le_refl _
  | succ width ih =>
    simp only [read?] at h
    split at h
    · next m c tail hr =>
      simp only [Option.map_eq_some_iff, Prod.mk.injEq] at h
      obtain ⟨d, -, -, rfl⟩ := h
      have hle := ih hr
      simp only [List.length_cons] at hle
      omega
    · simp at h

theorem value?_digit (upper : Bool) {n : Nat} (h : n < 16) :
    value? (digit upper n) = some n := by
  have hall : ∀ upper, ∀ n < 16, value? (digit upper n) = some n := by decide
  exact hall upper n h

theorem read?_digits (upper : Bool) {width n : Nat} (h : n < 16 ^ width) (cs : List Char) :
    read? width (digits upper n width ++ cs) = some (n, cs) := by
  induction width generalizing n cs with
  | zero =>
    obtain rfl : n = 0 := by omega
    rfl
  | succ width ih =>
    have hquot : n / 16 < 16 ^ width := by
      rw [Nat.pow_succ] at h
      omega
    have hrest : n % 16 < 16 := Nat.mod_lt n (by omega)
    rw [digits, List.append_assoc, List.singleton_append, read?, ih hquot]
    simp only [value?_digit upper hrest, Option.map_some, Nat.div_add_mod]

theorem length_digits (upper : Bool) (n width : Nat) : (digits upper n width).length = width := by
  induction width generalizing n with
  | zero => rfl
  | succ width ih => rw [digits, List.length_append, ih, List.length_singleton]

/-- Digits are printable characters of ASCII. -/
theorem digit_range (upper : Bool) {n : Nat} (h : n < 16) :
    0x20 ≤ (digit upper n).toNat ∧ (digit upper n).toNat < 0x7f := by
  have hall : ∀ upper, ∀ n < 16,
      0x20 ≤ (digit upper n).toNat ∧ (digit upper n).toNat < 0x7f := by decide
  exact hall upper n h

theorem digits_range {upper : Bool} {width n : Nat} {c : Char} (h : c ∈ digits upper n width) :
    0x20 ≤ c.toNat ∧ c.toNat < 0x7f := by
  induction width generalizing n with
  | zero => simp [digits] at h
  | succ width ih =>
    rw [digits, List.mem_append, List.mem_singleton] at h
    rcases h with h | rfl
    · exact ih h
    · exact digit_range upper (Nat.mod_lt n (by omega))

/-! ## Numerals -/

theorem numeral_small {n : Nat} (h : n < 16) : numeral n = [digit false n] := by
  rw [numeral, if_pos h]

theorem numeral_large {n : Nat} (h : ¬ n < 16) :
    numeral n = numeral (n / 16) ++ [digit false (n % 16)] := by
  rw [numeral, if_neg h]

theorem numeral_ne_nil (n : Nat) : numeral n ≠ [] := by
  rw [numeral]
  split <;> simp

theorem value?_of_mem_numeral {n : Nat} {c : Char} (h : c ∈ numeral n) : (value? c).isSome := by
  induction n using numeral.induct with
  | case1 n hn =>
    rw [numeral_small hn, List.mem_singleton] at h
    rw [h, value?_digit false hn]
    rfl
  | case2 n hn ih =>
    rw [numeral_large hn, List.mem_append, List.mem_singleton] at h
    rcases h with h | rfl
    · exact ih h
    · rw [value?_digit false (Nat.mod_lt n (by omega))]
      rfl

theorem digit_inj {m n : Nat} (hm : m < 16) (hn : n < 16) (h : digit false m = digit false n) :
    m = n := by
  have hvalue := congrArg value? h
  rwa [value?_digit false hm, value?_digit false hn, Option.some.injEq] at hvalue

theorem numeral_injective : Function.Injective numeral := by
  intro m
  induction m using numeral.induct with
  | case1 m hm =>
    intro n h
    by_cases hn : n < 16
    · rw [numeral_small hm, numeral_small hn] at h
      exact digit_inj hm hn (List.cons.inj h).1
    · rw [numeral_small hm, numeral_large hn, ← List.nil_append [digit false m]] at h
      exact absurd (List.append_inj' h rfl).1.symm (numeral_ne_nil _)
  | case2 m hm ih =>
    intro n h
    by_cases hn : n < 16
    · rw [numeral_large hm, numeral_small hn, ← List.nil_append [digit false n]] at h
      exact absurd (List.append_inj' h rfl).1 (numeral_ne_nil _)
    · rw [numeral_large hm, numeral_large hn] at h
      obtain ⟨hfront, hlast⟩ := List.append_inj' h rfl
      have hdigit := digit_inj (Nat.mod_lt m (by omega)) (Nat.mod_lt n (by omega))
        (List.cons.inj hlast).1
      have hquot := ih hfront
      omega

end PercentFormat.Hex
