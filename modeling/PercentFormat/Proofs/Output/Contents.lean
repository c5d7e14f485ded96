import Mathlib.Data.List.DropRight
import PercentFormat.Output.Lending
import PercentFormat.Proofs.Output.Filling
import PercentFormat.Proofs.Text.Decoding

/-!
# Contents of a buffer

Whatever is done to a fresh buffer, its bytes encode a text: all that was written since it was
last cleared.
-/

namespace PercentFormat

/-- A byte beyond ASCII is no text by itself. -/
def byteText (b : UInt8) : String :=
  if b.toNat < 128 then String.singleton (Char.ofNat b.toNat) else "\uFFFD"

theorem singleton_asciiOrReplacement (b : UInt8) :
    String.singleton (asciiOrReplacement b) = byteText b := by
  unfold asciiOrReplacement byteText
  by_cases h : b.toNat < 128
  · rw [if_pos h, if_pos (UInt8.lt_iff_toNat_lt.mpr h)]
  · rw [if_neg h, if_neg (h ∘ UInt8.lt_iff_toNat_lt.mp)]
    decide

/-- What an edit writes: text as it is, raw bytes as the text that they encode, or else decoded
with replacements. -/
def Edit.written : Edit → String
  | .reserve _ => ""
  | .text s => s
  | .char c => String.singleton c
  | .byte b => byteText b
  | .raw bytes => (String.fromUTF8? bytes).getD (Utf8.decodeLossy bytes)
  | .fill b count => String.join (List.replicate count (byteText b))

theorem Edit.added_eq_written (e : Edit) : e.added = e.written := by
  cases e with
  | reserve n => rfl
  | text s => rfl
  | char c => rfl
  | byte b => exact singleton_asciiOrReplacement b
  | raw bytes => exact (Utf8.decodeLossy_eq bytes).symm
  | fill b count =>
    rw [added, written, ← singleton_asciiOrReplacement, join_replicate_singleton]

namespace Buffer

/-! ## Steps -/

def Step.isClear : Step → Bool
  | .clear => true
  | .edit _ | .copy | .render .. => false

def Step.written : Step → String
  | .edit e => e.written
  | .clear | .copy => ""
  | .render t args => t.render args

theorem bytes_step (b : Buffer) (s : Step) :
    (b.step s).bytes =
      if s.isClear then ByteArray.empty else b.bytes ++ s.written.toUTF8 := by
  cases s with
  | edit e =>
    rw [step, bytes_apply, e.added_eq_written]
    rfl
  | clear => rfl
  | copy => exact ByteArray.append_empty.symm
  | render t args =>
    rw [step, Template.bytes_renderInto, ← Template.render_eq]
    rfl

/-! ## Runs -/

/-- What was written since a buffer was last cleared, or since it was new. -/
def sinceClear (steps : List Step) : String :=
  String.join ((steps.rtakeWhile fun s => !s.isClear).map Step.written)

theorem sinceClear_concat (steps : List Step) (s : Step) :
    sinceClear (steps ++ [s]) = if s.isClear then "" else sinceClear steps ++ s.written := by
  unfold sinceClear
  cases h : s.isClear with
  | true => rw [List.rtakeWhile_concat_neg _ _ _ (by simp [h]), if_pos rfl]; rfl
  | false =>
    rw [List.rtakeWhile_concat_pos _ _ _ (by simp [h]), List.map_append, String.join_append]
    simp [String.join_cons]

theorem run_concat (b : Buffer) (steps : List Step) (s : Step) :
    b.run (steps ++ [s]) = (b.run steps).step s := by
  simp [run]

theorem bytes_run (steps : List Step) :
    (Buffer.empty.run steps).bytes = (sinceClear steps).toUTF8 := by
  induction steps using List.reverseRecOn with
  | nil => rfl
  | append_singleton steps s ih =>
    rw [run_concat, bytes_step, sinceClear_concat, ih]
    cases s.isClear with
    | true => rfl
    | false => simp only [Bool.false_eq_true, if_false, toUTF8_append]

/-- After any steps on a fresh buffer its bytes are well-formed and encode what was written since
the last clear. To write bytes as to a sink is the edit that adds them, and takes them all. -/
theorem contents_run (steps : List Step) :
    (Buffer.empty.run steps).bytes = (sinceClear steps).toUTF8 ∧
      (Buffer.empty.run steps).bytes.IsValidUTF8 ∧
      (Buffer.empty.run steps).text = sinceClear steps ∧
      ∀ bytes, (Buffer.empty.run steps).write bytes =
        (Buffer.empty.run (steps ++ [.edit (.raw bytes)]), bytes.size) := by
  have hbytes := bytes_run steps
  refine ⟨hbytes, ?_, text_of_bytes hbytes, ?_⟩
  · rw [hbytes]
    exact (sinceClear steps).isValidUTF8
  · intro bytes
    rw [run_concat]
    rfl

-- The halves of a character that come one after the other are not joined again.
example :
    sinceClear [.edit (.text "a"), .clear, .edit (.raw ⟨#[0xc3]⟩), .copy,
      .edit (.raw ⟨#[0xa9]⟩), .edit (.fill 0xe9 2)] = "\uFFFD\uFFFD\uFFFD\uFFFD" := by
  decide +kernel

end Buffer

end PercentFormat
