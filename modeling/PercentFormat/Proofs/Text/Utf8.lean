import PercentFormat.Text.Utf8

/-!
# Encoding and decoding

Texts are encoded piece by piece and decoded to what they were.
-/

namespace PercentFormat

theorem toUTF8_append (s t : String) : (s ++ t).toUTF8 = s.toUTF8 ++ t.toUTF8 := by
  simp [String.toByteArray_append]

@[simp] theorem toUTF8_empty : "".toUTF8 = ByteArray.empty := rfl

theorem fromUTF8?_toUTF8 (s : String) : String.fromUTF8? s.toUTF8 = some s := by
  rw [String.fromUTF8?, String.toUTF8_eq_toByteArray, dif_pos s.isValidUTF8]
  rfl

/-- The bytes of a text are those of its characters. -/
theorem data_toUTF8 (s : String) :
    s.toUTF8.data.toList = s.toList.flatMap String.utf8EncodeChar := by
  have h : (String.ofList s.toList).toUTF8.data.toList =
      s.toList.flatMap String.utf8EncodeChar := by
    rw [String.toUTF8_eq_toByteArray, String.toByteArray_ofList, List.utf8Encode]
    simp
  rwa [String.ofList_toList] at h

theorem utf8EncodeChar_ascii {c : Char} (h : c.toNat < 0x80) :
    String.utf8EncodeChar c = [c.toNat.toUInt8] := by
  have hsize : c.utf8Size = 1 := by
    rw [Char.utf8Size_eq_one_iff, UInt32.le_iff_toNat_le]
    exact Nat.le_of_lt_succ h
  rw [String.utf8EncodeChar_eq_singleton hsize]
  rfl

theorem toNat_charOfNat {n : Nat} (h : n < 0xd800 ∨ 0xdfff < n ∧ n < 0x110000) :
    (Char.ofNat n).toNat = n := by
  rw [Char.ofNat, dif_pos h]
  rfl

theorem utf8EncodeChar_byte {b : UInt8} (h : b < 0x80) :
    String.utf8EncodeChar (Char.ofNat b.toNat) = [b] := by
  have hlt : b.toNat < 0x80 := UInt8.lt_iff_toNat_lt.mp h
  have hval : (Char.ofNat b.toNat).toNat = b.toNat := toNat_charOfNat (by omega)
  rw [utf8EncodeChar_ascii (by omega), hval]
  exact congrArg (fun b => [b]) UInt8.ofNat_toNat

theorem join_replicate_singleton (n : Nat) (c : Char) :
    String.join (List.replicate n (String.singleton c)) = String.ofList (List.replicate n c) := by
  induction n with
  | zero => rfl
  | succ n ih =>
    rw [List.replicate_succ, List.replicate_succ, String.join_cons, ih,
      String.singleton_eq_ofList, ← String.ofList_append]
    rfl

namespace Utf8

/-- The portions of a decoded text make up the whole of it. -/
theorem join_portions (run : List Char) (segments : List Segment) :
    String.join (portions run segments) =
      String.ofList (run.reverse ++ segments.map Segment.shown) := by
  induction segments generalizing run with
  | nil => simp [portions, String.join_cons]
  | cons s segments ih =>
    cases s with
    | scalar c => simp [portions, ih, Segment.shown]
    | illFormed bytes =>
      simp only [portions, String.join_cons, ih, List.map_cons, Segment.shown,
        String.ofList_append, List.reverse_nil, List.nil_append]
      rw [show replacement :: List.map Segment.shown segments =
        [replacement] ++ List.map Segment.shown segments from rfl, String.ofList_append,
        String.singleton_eq_ofList]

end Utf8

end PercentFormat
