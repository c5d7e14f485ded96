import Mathlib.Data.List.TakeWhile
import PercentFormat.Unicode.WhiteSpace

/-!
# Trimming and the case of letters

White space around a text is trimmed away, however much there is. ASCII letters are never white
space, so it does not matter whether a text is trimmed first or its case is changed.
-/

namespace PercentFormat

/-- Texts that are the same but for the case of ASCII letters. -/
def SameLetters (cs ds : List Char) : Prop := cs.map Char.toLower = ds.map Char.toLower

/-- Only capital letters have another small letter. -/
theorem toLower_cases (c : Char) :
    c.toLower = c ∨
      (0x41 ≤ c.toNat ∧ c.toNat ≤ 0x5a) ∧ 0x61 ≤ c.toLower.toNat ∧ c.toLower.toNat ≤ 0x7a := by
  by_cases h : c.val ≥ 'A'.val ∧ c.val ≤ 'Z'.val
  · right
    obtain ⟨hlow, hhigh⟩ := h
    have hlow' : 0x41 ≤ c.toNat := UInt32.le_iff_toNat_le.mp hlow
    have hhigh' : c.toNat ≤ 0x5a := UInt32.le_iff_toNat_le.mp hhigh
    have hval : c.toLower.toNat = c.toNat + 0x20 := by
      have hsum : c.toLower.toNat = (c.val + ('a'.val - 'A'.val)).toNat :=
        congrArg Char.toNat (dif_pos ⟨hlow, hhigh⟩)
      rw [hsum, UInt32.toNat_add]
      have hdiff : ('a'.val - 'A'.val).toNat = 0x20 := by decide
      have hc : c.val.toNat = c.toNat := rfl
      rw [hdiff, hc]
      omega
    omega
  · exact .inl (dif_neg h)

namespace Unicode

theorem isWhiteSpace_toLower (c : Char) : isWhiteSpace c.toLower = isWhiteSpace c := by
  have hletter : ∀ n < 0x7b, 0x41 ≤ n → whiteSpaceRanges.contains n = false := by decide
  rcases toLower_cases c with h | ⟨hc, hl⟩
  · rw [h]
  · rw [isWhiteSpace, isWhiteSpace, hletter _ (by omega) (by omega), hletter _ (by omega) hc.1]

theorem map_toLower_trim (cs : List Char) :
    (trim cs).map Char.toLower = trim (cs.map Char.toLower) := by
  have hsame : isWhiteSpace ∘ Char.toLower = isWhiteSpace := funext isWhiteSpace_toLower
  rw [trim, trim, List.dropWhile_map, hsame, ← List.map_reverse, List.dropWhile_map, hsame,
    List.map_reverse]

variable {cs front back : List Char}

theorem trim_eq_self (h : ∀ c ∈ cs, isWhiteSpace c = false) : trim cs = cs := by
  have hdrop {ds : List Char} (hd : ∀ c ∈ ds, isWhiteSpace c = false) :
      ds.dropWhile isWhiteSpace = ds := by
    cases ds with
    | nil => rfl
    | cons d ds => rw [List.dropWhile_cons_of_neg (by simp [hd d])]
  rw [trim, hdrop h, hdrop (by simpa using h), List.reverse_reverse]

theorem trim_surrounded (hfront : isBlank front = true) (hback : isBlank back = true) :
    trim (front ++ cs ++ back) = trim cs := by
  have hf : ∀ c ∈ front, isWhiteSpace c = true := by simpa [isBlank] using hfront
  have hb : ∀ c ∈ back, isWhiteSpace c = true := by simpa [isBlank] using hback
  rw [trim, trim, List.append_assoc, List.dropWhile_append_of_pos hf, List.dropWhile_append]
  split
  · next hcs =>
    rw [List.isEmpty_iff.mp hcs, List.dropWhile_eq_nil_iff.mpr hb]
  · rw [List.reverse_append, List.dropWhile_append_of_pos (by simpa using hb)]

end Unicode

end PercentFormat
