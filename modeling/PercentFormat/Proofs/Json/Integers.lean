import Mathlib.Data.List.TakeDrop
import PercentFormat.Json.Read
import PercentFormat.Json.Write
import PercentFormat.Proofs.Text.Decimal

/-!
# Integers of JSON

An integer of 64 bits is read back from its spelling, unless the text behind it goes on with the
number.
-/

namespace PercentFormat.Json

namespace Numeral

theorem appendDigits_eq {n : Nat} {ds : List Char} (h : Decimal.valueFrom n ds < UInt64.size) :
    appendDigits n ds = (Decimal.valueFrom n ds, []) := by
  induction ds generalizing n with
  | nil => rfl
  | cons d ds ih =>
    have hle := Decimal.le_valueFrom (10 * n + (d.toNat - '0'.toNat)) ds
    have hrest : Decimal.valueFrom (10 * n + (d.toNat - '0'.toNat)) ds < UInt64.size := h
    rw [appendDigits, if_pos (by omega), ih hrest]
    rfl

/-- The parts of a spelled integer. -/
def ofInteger (n : Int) : Numeral := ⟨decide (n < 0), Decimal.chars n.natAbs, [], none⟩

theorem number?_ofInteger {n : Int} (h : inRange n) :
    (ofInteger n).number? = some (.integer n) := by
  obtain ⟨hlow, hhigh⟩ := h
  have hfits : n.natAbs < UInt64.size := by
    rw [UInt64.size]
    omega
  have happend : appendDigits 0 (Decimal.chars n.natAbs) = (n.natAbs, []) := by
    have hvalue := Decimal.valueFrom_chars n.natAbs
    rw [appendDigits_eq (by rwa [hvalue]), hvalue]
  have hinteger : (ofInteger n).integer? = some n := by
    simp only [integer?, ofInteger, happend]
    by_cases hneg : n < 0
    · simp only [hneg, decide_true, if_true]
      have hn : -((n.natAbs : Nat) : Int) = n := by omega
      rw [hn, if_pos ⟨⟨hlow, hhigh⟩, by omega⟩]
    · simp only [hneg, decide_false]
      have hn : ((n.natAbs : Nat) : Int) = n := by omega
      simp [hn, inRange, hlow, hhigh]
  rw [number?, hinteger]

end Numeral

namespace Reader

/-- A text that does not go on with a number. -/
def Apart (rest : List Char) : Prop :=
  ∀ c ∈ rest.head?, c.isDigit = false ∧ c ≠ '.' ∧ c ≠ 'e' ∧ c ≠ 'E'

theorem apart_nil : Apart [] := by
  intro c hc
  simp at hc

theorem apart_cons {c : Char} (h : c.isDigit = false ∧ c ≠ '.' ∧ c ≠ 'e' ∧ c ≠ 'E')
    (rest : List Char) : Apart (c :: rest) := by
  intro d hd
  rw [List.head?_cons, Option.mem_some_iff] at hd
  exact hd ▸ h

variable {rest : List Char}

theorem digits_append (h : Apart rest) {ds : List Char} (hd : ∀ c ∈ ds, c.isDigit = true) :
    digits (ds ++ rest) = (ds, rest) := by
  have hrest : rest.takeWhile Char.isDigit = [] ∧ rest.dropWhile Char.isDigit = rest := by
    cases rest with
    | nil => exact ⟨rfl, rfl⟩
    | cons c rest =>
      have hc := (h c rfl).1
      simp [hc]
  rw [digits, List.span_eq_takeWhile_dropWhile, List.takeWhile_append_of_pos hd,
    List.dropWhile_append_of_pos hd, hrest.1, hrest.2, List.append_nil]

theorem wholeDigits?_chars (h : Apart rest) (n : Nat) :
    wholeDigits? (Decimal.chars n ++ rest) = some (Decimal.chars n, rest) := by
  rw [wholeDigits?, digits_append h (Decimal.isDigit_chars n)]
  have hne := Decimal.chars_ne_nil n
  by_cases hn : n = 0
  · rw [hn, Decimal.chars_small (by omega)]
    rfl
  · have hhead := Decimal.head?_chars hn
    generalize Decimal.chars n = ds at hne hhead
    split
    · next heq => exact absurd (Prod.mk.inj heq).1 hne
    · next heq =>
      rw [(Prod.mk.inj heq).1] at hhead
      exact absurd rfl hhead
    · rfl

theorem fraction?_apart (h : Apart rest) : fraction? rest = some ([], rest) := by
  unfold fraction?
  split
  · exact absurd rfl (h '.' rfl).2.1
  · rfl

theorem exponent?_apart (h : Apart rest) : exponent? rest = some (none, rest) := by
  cases rest with
  | nil => rfl
  | cons c rest =>
    obtain ⟨-, -, he, hE⟩ := h c rfl
    simp [exponent?, he, hE]

theorem numeral?_writeInteger (h : Apart rest) (n : Int) :
    numeral? (writeInteger n ++ rest) = some (Numeral.ofInteger n, rest) := by
  have hdigits := wholeDigits?_chars h n.natAbs
  unfold writeInteger Numeral.ofInteger
  by_cases hn : n < 0
  · simp [numeral?, hn, hdigits, fraction?_apart h, exponent?_apart h]
  · have hsign : ∀ cs, Decimal.chars n.natAbs ++ rest ≠ '-' :: cs := by
      intro cs heq
      have hhead := congrArg List.head? heq
      rw [List.head?_append_of_ne_nil _ (Decimal.chars_ne_nil _), List.head?_cons] at hhead
      have hdigit := Decimal.isDigit_chars _ _ (List.mem_of_mem_head? hhead)
      simp at hdigit
    simp [numeral?, hn, hdigits, fraction?_apart h, exponent?_apart h]

/-- An integer begins with a sign or a digit. -/
theorem writeInteger_eq_cons (n : Int) :
    ∃ c cs, writeInteger n = c :: cs ∧ (c = '-' ∨ c.isDigit = true) := by
  unfold writeInteger
  split
  · exact ⟨'-', _, rfl, .inl rfl⟩
  · obtain ⟨c, cs, hcs⟩ := List.exists_cons_of_ne_nil (Decimal.chars_ne_nil n.natAbs)
    exact ⟨c, cs, hcs, .inr (Decimal.isDigit_chars n.natAbs c (by simp [hcs]))⟩

end Reader

theorem writeInteger_range {n : Int} {c : Char} (h : c ∈ writeInteger n) : 0x20 ≤ c.toNat := by
  have hdigits : ∀ c ∈ Decimal.chars n.natAbs, 0x20 ≤ c.toNat := by
    intro c hc
    have hr := Decimal.isDigit_range (Decimal.isDigit_chars _ c hc)
    omega
  unfold writeInteger at h
  split at h
  · rcases List.mem_cons.mp h with rfl | h
    · decide
    · exact hdigits c h
  · exact hdigits c h

end PercentFormat.Json
