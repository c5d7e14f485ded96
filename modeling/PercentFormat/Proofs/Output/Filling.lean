import Mathlib.Data.List.Forall2
import PercentFormat.Output.Rendering
import PercentFormat.Proofs.Text.Utf8

/-!
# Filling a buffer

Edits add the encoding of their text to a buffer, whatever it held before. So a rendering is the
same text in every buffer.
-/

namespace PercentFormat

theorem toUTF8_replicate {b : UInt8} (h : b < 0x80) (n : Nat) :
    (String.ofList (List.replicate n (asciiOrReplacement b))).toUTF8 =
      (List.replicate n b).toByteArray := by
  rw [String.toUTF8_eq_toByteArray, String.toByteArray_ofList, asciiOrReplacement, if_pos h,
    List.utf8Encode]
  congr 1
  induction n with
  | zero => rfl
  | succ n ih => rw [List.replicate_succ, List.flatMap_cons, utf8EncodeChar_byte h, ih]; rfl

/-! ## Edits -/

@[simp] theorem Edit.allAdded_nil : Edit.allAdded [] = "" := rfl

@[simp] theorem Edit.allAdded_cons (e : Edit) (es : List Edit) :
    Edit.allAdded (e :: es) = e.added ++ Edit.allAdded es := by
  simp [Edit.allAdded, String.join_cons]

@[simp] theorem Edit.allAdded_append (es fs : List Edit) :
    Edit.allAdded (es ++ fs) = Edit.allAdded es ++ Edit.allAdded fs := by
  simp [Edit.allAdded, String.join_append]

theorem Edit.allAdded_flatMap {α : Type} {f : α → List Edit} {ks : List α} {texts : List String}
    (h : List.Forall₂ (fun k s => Edit.allAdded (f k) = s) ks texts) :
    Edit.allAdded (ks.flatMap f) = String.join texts := by
  induction h with
  | nil => rfl
  | cons hk _ ih => rw [List.flatMap_cons, Edit.allAdded_append, hk, ih, String.join_cons]

namespace Buffer

@[simp] theorem bytes_append (b : Buffer) (s : String) :
    (b.append s).bytes = b.bytes ++ s.toUTF8 := rfl

theorem bytes_foldl_append (b : Buffer) (ss : List String) :
    (ss.foldl append b).bytes = b.bytes ++ (String.join ss).toUTF8 := by
  induction ss generalizing b with
  | nil => simp
  | cons s ss ih =>
    rw [List.foldl_cons, ih, bytes_append, String.join_cons, toUTF8_append, ByteArray.append_assoc]

theorem bytes_apply (b : Buffer) (e : Edit) :
    (b.apply e).bytes = b.bytes ++ e.added.toUTF8 := by
  cases e with
  | reserve n => simp [apply, reserve, Edit.added]
  | text s => rfl
  | char c => rfl
  | byte byte => rfl
  | raw bytes =>
    rw [apply, bytes_foldl_append, Utf8.join_portions]
    rfl
  | fill byte n =>
    by_cases h : byte < 0x80
    · rw [apply, if_pos h, Edit.added, toUTF8_replicate h]
      rfl
    · rw [apply, if_neg h, bytes_foldl_append, Edit.added, asciiOrReplacement, if_neg h]
      rw [join_replicate_singleton]
      rfl

theorem bytes_applyAll (b : Buffer) (es : List Edit) :
    (b.applyAll es).bytes = b.bytes ++ (Edit.allAdded es).toUTF8 := by
  induction es generalizing b with
  | nil => simp [applyAll]
  | cons e es ih =>
    simp only [applyAll] at ih ⊢
    rw [List.foldl_cons, ih, bytes_apply, Edit.allAdded_cons, toUTF8_append,
      ByteArray.append_assoc]

theorem text_of_bytes {b : Buffer} {s : String} (h : b.bytes = s.toUTF8) : b.text = s := by
  rw [text, h, fromUTF8?_toUTF8]
  rfl

end Buffer

/-! ## Renderings -/

namespace Template

theorem bytes_renderInto (t : Template) (args : List String) (b : Buffer) :
    (t.renderInto args b).bytes = b.bytes ++ (Edit.allAdded (t.edits args)).toUTF8 :=
  b.bytes_applyAll (t.edits args)

theorem render_eq (t : Template) (args : List String) :
    t.render args = Edit.allAdded (t.edits args) := by
  refine Buffer.text_of_bytes ?_
  rw [bytes_renderInto, Buffer.empty, ByteArray.empty_append]

end Template

end PercentFormat
