import Mathlib.Tactic.SplitIfs
import PercentFormat.Json.Read
import PercentFormat.Json.Write
import PercentFormat.Proofs.Text.Hex

/-!
# Strings of JSON

A string is read back from its spelling, and the spelling has no control characters.
-/

namespace PercentFormat.Json

/-- The three ways to write a character: a short escape, its number, itself. -/
theorem escapeChar_cases (c : Char) :
    (∃ d, escapeChar c = ['\\', d] ∧ Reader.shortEscape? d = some c ∧ d ≠ 'u' ∧ 0x20 ≤ d.toNat) ∨
      (c.toNat < 0x20 ∧ escapeChar c = '\\' :: 'u' :: Hex.digits false c.toNat 4) ∨
      (c ≠ '"' ∧ c ≠ '\\' ∧ 0x20 ≤ c.toNat ∧ escapeChar c = [c]) := by
  unfold escapeChar
  split_ifs with h₁ h₂ h₃ h₄ h₅ h₆ h₇ h₈
  · exact .inl ⟨'"', rfl, by rw [h₁]; rfl, by decide, by decide⟩
  · exact .inl ⟨'\\', rfl, by rw [h₂]; rfl, by decide, by decide⟩
  · exact .inl ⟨'b', rfl, h₃ ▸ rfl, by decide, by decide⟩
  · exact .inl ⟨'t', rfl, h₄ ▸ rfl, by decide, by decide⟩
  · exact .inl ⟨'n', rfl, h₅ ▸ rfl, by decide, by decide⟩
  · exact .inl ⟨'f', rfl, h₆ ▸ rfl, by decide, by decide⟩
  · exact .inl ⟨'r', rfl, h₇ ▸ rfl, by decide, by decide⟩
  · exact .inr (.inl ⟨h₈, rfl⟩)
  · exact .inr (.inr ⟨h₁, h₂, by omega, rfl⟩)

namespace Reader

theorem unit?_digits {n : Nat} (h : n < 16 ^ 4) (rest : List Char) :
    unit? (Hex.digits false n 4 ++ rest) = some (n, rest) := by
  have hdigit {m : Nat} : Hex.value? (Hex.digit false (m % 16)) = some (m % 16) :=
    Hex.value?_digit false (Nat.mod_lt m (by omega))
  simp only [Hex.digits, List.nil_append, List.cons_append, unit?, hdigit, Option.bind_eq_bind,
    Option.bind_some, Option.some.injEq, Prod.mk.injEq, and_true]
  omega

theorem escape?_short {c d : Char} (hc : c ≠ 'u') (h : shortEscape? c = some d)
    (rest : List Char) : escape? (c :: rest) = some (some d, rest) := by
  rw [escape?, if_neg hc, h]
  rfl

/-- A character below the surrogates by its number. -/
theorem escape?_numbered {c : Char} (h : c.toNat < 0xd800) (rest : List Char) :
    escape? ('u' :: (Hex.digits false c.toNat 4 ++ rest)) = some (some c, rest) := by
  have hlead : isLead c.toNat = false := by simp [isLead]; omega
  have htrail : isTrail c.toNat = false := by simp [isTrail]; omega
  simp [escape?, unit?_digits (show c.toNat < 16 ^ 4 by omega), hlead, htrail]

theorem stringBody_quote (rest : List Char) : stringBody ('"' :: rest) = some (some [], rest) := by
  rw [stringBody, if_pos rfl]

theorem stringBody_escape {cs rest : List Char} {c : Char}
    (h : escape? cs = some (some c, rest)) :
    stringBody ('\\' :: cs) =
      (stringBody rest).map fun p => (consChar (some c) p.1, p.2) := by
  rw [stringBody, if_neg (by decide), if_pos rfl]
  split
  · next hn => rw [hn] at h; simp at h
  · next d rest' hs =>
    rw [hs, Option.some.injEq, Prod.mk.injEq] at h
    rw [h.1, h.2]

theorem stringBody_plain {c : Char} (hquote : c ≠ '"') (hback : c ≠ '\\') (h : 0x20 ≤ c.toNat)
    (rest : List Char) :
    stringBody (c :: rest) = (stringBody rest).map fun p => (consChar (some c) p.1, p.2) := by
  rw [stringBody, if_neg hquote, if_neg hback, if_neg (by omega)]

/-- Every character is read back, however it is written. -/
theorem stringBody_escapeChar (c : Char) (rest : List Char) :
    stringBody (escapeChar c ++ rest) =
      (stringBody rest).map fun p => (consChar (some c) p.1, p.2) := by
  rcases escapeChar_cases c with ⟨d, he, hd, hu, -⟩ | ⟨hc, he⟩ | ⟨hquote, hback, hc, he⟩
  · rw [he]
    exact stringBody_escape (escape?_short hu hd rest)
  · rw [he]
    exact stringBody_escape (escape?_numbered (by omega) rest)
  · rw [he]
    exact stringBody_plain hquote hback hc rest

theorem stringBody_escaped (cs rest : List Char) :
    stringBody (cs.flatMap escapeChar ++ '"' :: rest) = some (some cs, rest) := by
  induction cs with
  | nil => exact stringBody_quote rest
  | cons c cs ih =>
    rw [List.flatMap_cons, List.append_assoc, stringBody_escapeChar, ih]
    rfl

end Reader

theorem escapeChar_range {c d : Char} (h : d ∈ escapeChar c) : 0x20 ≤ d.toNat := by
  rcases escapeChar_cases c with ⟨e, he, -, -, hr⟩ | ⟨-, he⟩ | ⟨-, -, hr, he⟩
  · rw [he, List.mem_cons, List.mem_singleton] at h
    rcases h with rfl | rfl
    · decide
    · exact hr
  · rw [he, List.mem_cons, List.mem_cons] at h
    rcases h with rfl | rfl | h
    · decide
    · decide
    · exact (Hex.digits_range h).1
  · rw [he, List.mem_singleton] at h
    exact h ▸ hr

theorem writeString_range {s : String} {d : Char} (h : d ∈ writeString s) : 0x20 ≤ d.toNat := by
  simp only [writeString, List.cons_append, List.mem_cons, List.mem_append, List.mem_flatMap,
    List.not_mem_nil, or_false] at h
  rcases h with rfl | ⟨c, -, h⟩ | rfl
  · decide
  · exact escapeChar_range h
  · decide

end PercentFormat.Json
