import Mathlib.Data.List.Basic
import PercentFormat.Text.Decimal

/-!
# Reading decimal digits

A number is the value of its digits, with or without zeros in front.
-/

namespace PercentFormat.Decimal

theorem isDigit_range {c : Char} (h : c.isDigit = true) : 0x30 ≤ c.toNat ∧ c.toNat ≤ 0x39 := by
  simp only [Char.isDigit, Bool.and_eq_true, decide_eq_true_eq, ge_iff_le] at h
  exact h

theorem isDigit_digit {n : Nat} (h : n < 10) : (digit n).isDigit = true := by
  have hall : ∀ n < 10, (digit n).isDigit = true := by decide
  exact hall n h

theorem toNat_digit {n : Nat} (h : n < 10) : (digit n).toNat - '0'.toNat = n := by
  have hall : ∀ n < 10, (digit n).toNat - '0'.toNat = n := by decide
  exact hall n h

theorem le_valueFrom (n : Nat) (ds : List Char) : n ≤ valueFrom n ds := by
  induction ds generalizing n with
  | nil => exact Nat.le_refl n
  | cons d ds ih =>
    have h := ih (10 * n + (d.toNat - '0'.toNat))
    simp only [valueFrom, List.foldl_cons] at h ⊢
    omega

theorem valueFrom_append (n : Nat) (ds es : List Char) :
    valueFrom n (ds ++ es) = valueFrom (valueFrom n ds) es := by
  rw [valueFrom, List.foldl_append]
  rfl

theorem value?_eq_some_iff {ds : List Char} {n : Nat} :
    value? ds = some n ↔ ds ≠ [] ∧ (∀ c ∈ ds, c.isDigit = true) ∧ valueFrom 0 ds = n := by
  rw [value?, Option.ite_none_right_eq_some, Option.some.injEq, List.all_eq_true, and_assoc]

/-- A numeral begins with a digit. -/
theorem head?_numeral {ds : List Char} {n : Nat} (h : value? ds = some n) {c : Char}
    (hc : c.isDigit = false) (cs : List Char) : (ds ++ cs).head? ≠ some c := by
  obtain ⟨hne, hdigit, -⟩ := value?_eq_some_iff.mp h
  rw [List.head?_append_of_ne_nil _ hne]
  intro hhead
  rw [hdigit c (List.mem_of_mem_head? hhead)] at hc
  exact absurd hc (by decide)

theorem chars_small {n : Nat} (h : n < 10) : chars n = [digit n] := by
  rw [chars, if_pos h]

theorem chars_large {n : Nat} (h : ¬ n < 10) : chars n = chars (n / 10) ++ [digit (n % 10)] := by
  rw [chars, if_neg h]

theorem chars_ne_nil (n : Nat) : chars n ≠ [] := by
  rw [chars]
  split <;> simp

theorem isDigit_chars (n : Nat) : ∀ c ∈ chars n, c.isDigit = true := by
  induction n using chars.induct with
  | case1 n h =>
    rw [chars_small h, List.forall_mem_singleton]
    exact isDigit_digit h
  | case2 n h ih =>
    rw [chars_large h, List.forall_mem_append, List.forall_mem_singleton]
    exact ⟨ih, isDigit_digit (Nat.mod_lt n (by omega))⟩

theorem valueFrom_chars (n : Nat) : valueFrom 0 (chars n) = n := by
  induction n using chars.induct with
  | case1 n h =>
    rw [chars_small h]
    exact (Nat.zero_add _).trans (toNat_digit h)
  | case2 n h ih =>
    have hlast : n % 10 < 10 := Nat.mod_lt n (by omega)
    rw [chars_large h, valueFrom_append, ih]
    simp only [valueFrom, List.foldl_cons, List.foldl_nil, toNat_digit hlast]
    omega

/-- Only the digits of zero begin with one. -/
theorem head?_chars {n : Nat} (h : n ≠ 0) : (chars n).head? ≠ some '0' := by
  induction n using chars.induct with
  | case1 n hn =>
    have hall : ∀ n < 10, n ≠ 0 → digit n ≠ '0' := by decide
    rw [chars_small hn, List.head?_cons, ne_eq, Option.some.injEq]
    exact hall n hn h
  | case2 n hn ih =>
    rw [chars_large hn, List.head?_append_of_ne_nil _ (chars_ne_nil _)]
    exact ih (by omega)

theorem valueFrom_zeros (k : Nat) (ds : List Char) :
    valueFrom 0 (List.replicate k '0' ++ ds) = valueFrom 0 ds := by
  induction k with
  | zero => rfl
  | succ k ih =>
    rw [List.replicate_succ, List.cons_append]
    exact ih

theorem padded_injective (width : Nat) : Function.Injective (padded width) := by
  intro m n h
  have hchars := congrArg (fun s : String => valueFrom 0 s.toList) h
  simpa only [padded, String.toList_ofList, valueFrom_zeros, valueFrom_chars] using hchars

/-- A number in digits, with zeros in front only where it is too short. -/
structure Pads (width n : Nat) (s : String) : Prop where
  isDigit : ∀ c ∈ s.toList, c.isDigit = true
  value : valueFrom 0 s.toList = n
  length : width ≤ s.length
  zeros : width < s.length → s.toList.head? ≠ some '0'

theorem pads_padded {width : Nat} (h : 0 < width) (n : Nat) : Pads width n (padded width n) := by
  have hchars : (padded width n).toList =
      List.replicate (width - (chars n).length) '0' ++ chars n := String.toList_ofList
  refine ⟨?_, ?_, ?_, ?_⟩
  · intro c hc
    rw [hchars, List.mem_append] at hc
    rcases hc with hc | hc
    · rw [List.eq_of_mem_replicate hc]
      decide
    · exact isDigit_chars n c hc
  · rw [hchars, valueFrom_zeros, valueFrom_chars]
  · rw [← String.length_toList, hchars, List.length_append, List.length_replicate]
    omega
  · rw [← String.length_toList, hchars, List.length_append, List.length_replicate]
    intro hlong
    have hzero : n ≠ 0 := by
      rintro rfl
      rw [chars_small (by omega), List.length_singleton] at hlong
      omega
    rw [Nat.sub_eq_zero_of_le (by omega), List.replicate_zero, List.nil_append]
    exact head?_chars hzero

end PercentFormat.Decimal
