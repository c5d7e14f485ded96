import Mathlib.Logic.ExistsUnique
import PercentFormat.Proofs.Output.Contents
import PercentFormat.Proofs.Text.Segmentation

/-!
# Raw bytes in a buffer

Raw bytes are written as the text that they encode. What encodes nothing becomes U+FFFD, once for
each longest run, and every character around it stays what and where it is.
-/

namespace PercentFormat

namespace Utf8

/-- Characters alone are a single portion. -/
theorem portions_scalars (run cs : List Char) :
    portions run (cs.map .scalar) = [String.ofList (run.reverse ++ cs)] := by
  induction cs generalizing run with
  | nil => rw [List.map_nil, portions, List.append_nil]
  | cons c cs ih =>
    rw [List.map_cons, portions, ih, List.reverse_cons, List.append_assoc, List.singleton_append]

theorem portions_toUTF8 (s : String) : portions [] (segments s.toUTF8.data.toList) = [s] := by
  rw [segments_toUTF8, portions_scalars, List.reverse_nil, List.nil_append, String.ofList_toList]

end Utf8

namespace Buffer

theorem apply_raw_of_valid (b : Buffer) {bytes : ByteArray} (h : bytes.IsValidUTF8) :
    b.apply (.raw bytes) = b.push bytes := by
  obtain ⟨s, rfl⟩ := Utf8.exists_toUTF8 h
  rw [apply, Utf8.portions_toUTF8]
  rfl

theorem bytes_apply_raw (b : Buffer) (bytes : ByteArray) :
    (b.apply (.raw bytes)).bytes = b.bytes ++ (Utf8.decodeLossy bytes).toUTF8 :=
  b.bytes_apply (.raw bytes)

/-- Raw bytes have one split into encoded characters and longest ill-formed runs, of three bytes at
most, and are written as the characters with U+FFFD for each run. Bytes that are text are added as
they are, at once. Where a text begins or ends the bytes may be written in two steps. To write them
as to a sink adds the same and takes them all. -/
theorem raw_lossless (b : Buffer) (bytes : ByteArray) :
    (∃! segs, Utf8.Split bytes.data.toList segs) ∧
      (∀ segs, Utf8.Split bytes.data.toList segs →
        (b.apply (.raw bytes)).bytes =
            b.bytes ++ (String.ofList (segs.map Utf8.Segment.shown)).toUTF8 ∧
          ∀ bad, .illFormed bad ∈ segs → 1 ≤ bad.length ∧ bad.length ≤ 3) ∧
      (bytes.IsValidUTF8 → b.apply (.raw bytes) = b.push bytes) ∧
      (∀ front back, bytes = front ++ back → front.IsValidUTF8 ∨ back.IsValidUTF8 →
        ((b.apply (.raw front)).apply (.raw back)).bytes = (b.apply (.raw bytes)).bytes) ∧
      b.write bytes = (b.apply (.raw bytes), bytes.size) := by
  refine ⟨?_, ?_, b.apply_raw_of_valid, ?_, rfl⟩
  · exact ⟨_, Utf8.split_segments _, fun segs h => h.eq_segments⟩
  · intro segs hsplit
    refine ⟨?_, fun bad hbad => hsplit.length_illFormed hbad⟩
    rw [bytes_apply_raw, hsplit.eq_segments, Utf8.decodeLossy]
  · rintro front back rfl hvalid
    rw [bytes_apply_raw, bytes_apply_raw, bytes_apply_raw, Utf8.decodeLossy_append hvalid,
      toUTF8_append, ByteArray.append_assoc]

/-- Two bytes of a longer encoding are one run, and the character behind them may be written by
itself. -/
theorem raw_lossless_cut :
    Utf8.Split [0x61, 0xe2, 0x82, 0xc3, 0xa9]
        [.scalar 'a', .illFormed [0xe2, 0x82], .scalar '\u00e9'] ∧
      (empty.apply (.raw ⟨#[0x61, 0xe2, 0x82, 0xc3, 0xa9]⟩)).bytes =
        empty.bytes ++ (String.ofList ['a', '\ufffd', '\u00e9']).toUTF8 ∧
      (⟨#[0xc3, 0xa9]⟩ : ByteArray).IsValidUTF8 ∧
      empty.apply (.raw ⟨#[0xc3, 0xa9]⟩) = empty.push ⟨#[0xc3, 0xa9]⟩ ∧
      ((empty.apply (.raw ⟨#[0x61, 0xe2, 0x82]⟩)).apply (.raw ⟨#[0xc3, 0xa9]⟩)).bytes =
        (empty.apply (.raw ⟨#[0x61, 0xe2, 0x82, 0xc3, 0xa9]⟩)).bytes := by
  have hsegments : Utf8.segments [0x61, 0xe2, 0x82, 0xc3, 0xa9] =
      [.scalar 'a', .illFormed [0xe2, 0x82], .scalar '\u00e9'] := by decide +kernel
  have hsplit := hsegments ▸ Utf8.split_segments [0x61, 0xe2, 0x82, 0xc3, 0xa9]
  have hbytes : (⟨#[0xc3, 0xa9]⟩ : ByteArray) = "\u00e9".toUTF8 := by decide +kernel
  have hvalid : (⟨#[0xc3, 0xa9]⟩ : ByteArray).IsValidUTF8 := hbytes ▸ "\u00e9".isValidUTF8
  obtain ⟨-, hwritten, -, hparts, -⟩ := raw_lossless empty ⟨#[0x61, 0xe2, 0x82, 0xc3, 0xa9]⟩
  obtain ⟨-, -, hwhole, -⟩ := raw_lossless empty ⟨#[0xc3, 0xa9]⟩
  exact ⟨hsplit, (hwritten _ hsplit).1, hvalid, hwhole hvalid, hparts _ _ rfl (.inr hvalid)⟩

end Buffer

end PercentFormat
