import PercentFormat.Proofs.Text.Utf8

/-!
# Decoding of encoded texts

The encoding of a character is a segment of its own, whatever stands behind it. So bytes that
encode a text are decoded to that text.
-/

namespace PercentFormat

namespace Utf8

variable {n k m bits : Nat} {lo hi : UInt8} {seen rest : List UInt8}

/-! ## Bytes behind a lead byte -/

theorem follow_zero : follow 0 lo hi bits seen rest = (.scalar (Char.ofNat bits), rest) := by
  cases rest <;> rfl

/-- A byte in the range gives its six bits; the byte after it may be any continuation byte. -/
theorem follow_succ (hm : m < 64) (hlo : lo.toNat ≤ m + 128) (hhi : m + 128 ≤ hi.toNat) :
    follow (n + 1) lo hi bits seen (UInt8.ofNat (m + 128) :: rest) =
      follow n 0x80 0xbf (64 * bits + m) (UInt8.ofNat (m + 128) :: seen) rest := by
  have hbyte : m + 128 < 256 := by omega
  have hnat : (UInt8.ofNat (m + 128)).toNat = m + 128 := UInt8.toNat_ofNat_of_lt' hbyte
  have hrange : lo ≤ UInt8.ofNat (m + 128) ∧ UInt8.ofNat (m + 128) ≤ hi := by
    rw [UInt8.le_iff_toNat_le, UInt8.le_iff_toNat_le, hnat]
    exact ⟨hlo, hhi⟩
  have hbits : (m + 128) % 64 = m := by omega
  rw [follow, if_pos hrange, hnat, hbits]

theorem follow_continuation (hm : m < 64) :
    follow (n + 1) 0x80 0xbf bits seen (UInt8.ofNat (m + 128) :: rest) =
      follow n 0x80 0xbf (64 * bits + m) (UInt8.ofNat (m + 128) :: seen) rest :=
  follow_succ hm (Nat.le_add_left ..) (Nat.add_le_add_right (Nat.le_of_lt_succ hm) 128)

/-! ## Lead bytes -/

theorem lead?_ofNat (h : n < 256) :
    lead? (UInt8.ofNat n) =
      if n < 0xc2 then none
      else if n < 0xe0 then some ⟨n - 0xc0, 1, 0x80, 0xbf⟩
      else if n = 0xe0 then some ⟨0, 2, 0xa0, 0xbf⟩
      else if n = 0xed then some ⟨0xd, 2, 0x80, 0x9f⟩
      else if n < 0xf0 then some ⟨n - 0xe0, 2, 0x80, 0xbf⟩
      else if n = 0xf0 then some ⟨0, 3, 0x90, 0xbf⟩
      else if n < 0xf4 then some ⟨n - 0xf0, 3, 0x80, 0xbf⟩
      else if n = 0xf4 then some ⟨4, 3, 0x80, 0x8f⟩
      else none := by
  simp only [lead?, UInt8.lt_iff_toNat_lt, ← UInt8.toNat_inj, UInt8.toNat_ofNat_of_lt' h]
  rfl

theorem lead?_two (hlo : 2 ≤ k) (hhi : k < 32) :
    lead? (UInt8.ofNat (k + 192)) = some ⟨k, 1, 0x80, 0xbf⟩ := by
  rw [lead?_ofNat (by omega), if_neg (by omega), if_pos (by omega), Nat.add_sub_cancel]

theorem exists_lead?_three (hk : k < 16) (hm : m < 64) (hlong : k = 0 → 32 ≤ m)
    (hsurrogate : k = 13 → m < 32) :
    ∃ lo hi, lead? (UInt8.ofNat (k + 224)) = some ⟨k, 2, lo, hi⟩ ∧
      lo.toNat ≤ m + 128 ∧ m + 128 ≤ hi.toNat := by
  rw [lead?_ofNat (by omega), if_neg (by omega), if_neg (by omega)]
  -- The least lead byte leaves out overlong encodings, and another one the surrogates.
  by_cases hzero : k = 0
  · have hm' := hlong hzero
    subst hzero
    exact ⟨0xa0, 0xbf, rfl, Nat.add_le_add_right hm' 128, by change m + 128 ≤ 191; omega⟩
  rw [if_neg (by omega)]
  by_cases hthirteen : k = 13
  · have hm' := hsurrogate hthirteen
    subst hthirteen
    exact ⟨0x80, 0x9f, rfl, Nat.le_add_left .., by change m + 128 ≤ 159; omega⟩
  rw [if_neg (by omega), if_pos (by omega), Nat.add_sub_cancel]
  exact ⟨0x80, 0xbf, rfl, Nat.le_add_left .., by change m + 128 ≤ 191; omega⟩

theorem exists_lead?_four (hk : k ≤ 4) (hm : m < 64) (hlong : k = 0 → 16 ≤ m)
    (hlarge : k = 4 → m < 16) :
    ∃ lo hi, lead? (UInt8.ofNat (k + 240)) = some ⟨k, 3, lo, hi⟩ ∧
      lo.toNat ≤ m + 128 ∧ m + 128 ≤ hi.toNat := by
  rw [lead?_ofNat (by omega), if_neg (by omega), if_neg (by omega), if_neg (by omega),
    if_neg (by omega), if_neg (by omega)]
  -- The least lead byte leaves out overlong encodings, the greatest one what is no scalar.
  by_cases hzero : k = 0
  · have hm' := hlong hzero
    subst hzero
    exact ⟨0x90, 0xbf, rfl, by change 144 ≤ m + 128; omega, by change m + 128 ≤ 191; omega⟩
  rw [if_neg (by omega)]
  by_cases hfour : k = 4
  · have hm' := hlarge hfour
    subst hfour
    exact ⟨0x80, 0x8f, rfl, Nat.le_add_left .., by change m + 128 ≤ 143; omega⟩
  rw [if_pos (by omega), Nat.add_sub_cancel]
  exact ⟨0x80, 0xbf, rfl, Nat.le_add_left .., by change m + 128 ≤ 191; omega⟩

/-! ## Characters -/

theorem first_of_lead? (hn : 128 ≤ n) (hlt : n < 256)
    (h : lead? (UInt8.ofNat n) = some ⟨bits, k, lo, hi⟩) :
    first (UInt8.ofNat n) rest = follow k lo hi bits [UInt8.ofNat n] rest := by
  have hascii : ¬ UInt8.ofNat n < 0x80 := by
    rw [UInt8.lt_iff_toNat_lt, UInt8.toNat_ofNat_of_lt' hlt]
    exact Nat.not_lt.mpr hn
  rw [first, if_neg hascii, h]

theorem first_utf8EncodeChar {c : Char} {b : UInt8} {bs : List UInt8}
    (h : String.utf8EncodeChar c = b :: bs) (rest : List UInt8) :
    first b (bs ++ rest) = (.scalar c, rest) := by
  have hvalid : c.toNat < 0xd800 ∨ 0xdfff < c.toNat ∧ c.toNat < 0x110000 := c.valid
  have hchar : ∀ n, n = c.toNat → Char.ofNat n = c := fun n hn => hn ▸ Char.ofNat_toNat c
  have hval : c.val.toNat = c.toNat := rfl
  simp only [String.utf8EncodeChar, hval] at h
  split at h
  · next hone =>
    obtain ⟨rfl, rfl⟩ := List.cons.inj h
    have hbyte : c.toNat < 256 := by omega
    have hb : (UInt8.ofNat c.toNat).toNat = c.toNat := UInt8.toNat_ofNat_of_lt' hbyte
    have hascii : UInt8.ofNat c.toNat < 0x80 := by
      rw [UInt8.lt_iff_toNat_lt, hb]
      exact Nat.lt_succ_of_le hone
    rw [first, if_pos hascii, hb, Char.ofNat_toNat, List.nil_append]
  split at h
  · next hone htwo =>
    obtain ⟨rfl, rfl⟩ := List.cons.inj h
    have hlead := lead?_two (k := c.toNat / 64 % 32) (by omega) (by omega)
    rw [first_of_lead? (by omega) (by omega) hlead, List.cons_append,
      follow_continuation (by omega), follow_zero, hchar _ (by omega), List.nil_append]
  split at h
  · next hone htwo hthree =>
    obtain ⟨rfl, rfl⟩ := List.cons.inj h
    obtain ⟨lo, hi, hlead, hlo, hhi⟩ := exists_lead?_three (k := c.toNat / 4096 % 16)
      (m := c.toNat / 64 % 64) (by omega) (by omega) (by omega) (by omega)
    rw [first_of_lead? (by omega) (by omega) hlead, List.cons_append,
      follow_succ (by omega) hlo hhi, List.cons_append, follow_continuation (by omega),
      follow_zero, hchar _ (by omega), List.nil_append]
  · next hone htwo hthree =>
    obtain ⟨rfl, rfl⟩ := List.cons.inj h
    obtain ⟨lo, hi, hlead, hlo, hhi⟩ := exists_lead?_four (k := c.toNat / 262144 % 8)
      (m := c.toNat / 4096 % 64) (by omega) (by omega) (by omega) (by omega)
    rw [first_of_lead? (by omega) (by omega) hlead, List.cons_append,
      follow_succ (by omega) hlo hhi, List.cons_append, follow_continuation (by omega),
      List.cons_append, follow_continuation (by omega), follow_zero, hchar _ (by omega),
      List.nil_append]

/-! ## Texts -/

theorem segments_cons (b : UInt8) (rest : List UInt8) :
    segments (b :: rest) = (first b rest).1 :: segments (first b rest).2 := by
  rw [segments]

theorem segments_flatMap_append (cs : List Char) (rest : List UInt8) :
    segments (cs.flatMap String.utf8EncodeChar ++ rest) = cs.map .scalar ++ segments rest := by
  induction cs with
  | nil => rfl
  | cons c cs ih =>
    cases henc : String.utf8EncodeChar c with
    | nil => exact absurd henc String.utf8EncodeChar_ne_nil
    | cons b bs =>
      rw [List.flatMap_cons, henc, List.append_assoc, List.cons_append, segments_cons,
        first_utf8EncodeChar henc, ih]
      rfl

theorem segments_toUTF8_append (s : String) (rest : List UInt8) :
    segments (s.toUTF8.data.toList ++ rest) = s.toList.map .scalar ++ segments rest := by
  rw [data_toUTF8, segments_flatMap_append]

theorem segments_toUTF8 (s : String) : segments s.toUTF8.data.toList = s.toList.map .scalar := by
  have hsegments := segments_toUTF8_append s []
  rwa [List.append_nil, segments, List.append_nil] at hsegments

theorem decodeLossy_toUTF8 (s : String) : decodeLossy s.toUTF8 = s := by
  have hshown : Segment.shown ∘ Segment.scalar = id := rfl
  rw [decodeLossy, segments_toUTF8, List.map_map, hshown, List.map_id, String.ofList_toList]

end Utf8

theorem fromUTF8?_eq_some {bytes : ByteArray} {s : String} (h : String.fromUTF8? bytes = some s) :
    bytes = s.toUTF8 := by
  unfold String.fromUTF8? at h
  split at h
  · obtain rfl := Option.some.inj h
    rfl
  · exact nomatch h

namespace Utf8

theorem decodeLossy_eq (bytes : ByteArray) :
    (String.fromUTF8? bytes).getD (decodeLossy bytes) = decodeLossy bytes := by
  cases h : String.fromUTF8? bytes with
  | none => rfl
  | some s => rw [fromUTF8?_eq_some h, decodeLossy_toUTF8, Option.getD_some]

end Utf8

end PercentFormat
