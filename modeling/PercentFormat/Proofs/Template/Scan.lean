import PercentFormat.Proofs.Template.Pieces
import PercentFormat.Template.Compile

/-!
# The scan of a format

A format is scanned from percent sign to percent sign. Up to merging, the scan takes literal text
in any portions.
-/

namespace PercentFormat

open Piece

namespace DirectiveReader

variable (reader : DirectiveReader) (cursor : Cursor)

theorem pieces_nil : reader.pieces cursor [] = ([], cursor.named) := by
  rw [pieces]

theorem pieces_percent (cs : List Char) :
    reader.pieces cursor ('%' :: cs) =
      ((reader.read cursor cs).piece ::
          (reader.pieces (reader.read cursor cs).cursor (reader.read cursor cs).rest).1,
        (reader.pieces (reader.read cursor cs).cursor (reader.read cursor cs).rest).2) := by
  rw [pieces]
  simp

theorem pieces_other {c : Char} (hc : c ≠ '%') (cs : List Char) :
    reader.pieces cursor (c :: cs) =
      (.literal (String.ofList (c :: cs.takeWhile (· ≠ '%'))) ::
          (reader.pieces cursor (cs.dropWhile (· ≠ '%'))).1,
        (reader.pieces cursor (cs.dropWhile (· ≠ '%'))).2) := by
  rw [pieces]
  simp [hc]

/-- Every scan begins with the text up to the first percent sign, which may be empty. -/
theorem merge_pieces (cs : List Char) :
    (reader.pieces cursor cs).2 = (reader.pieces cursor (cs.dropWhile (· ≠ '%'))).2 ∧
      merge (reader.pieces cursor cs).1 =
        cons (.literal (String.ofList (cs.takeWhile (· ≠ '%'))))
          (merge (reader.pieces cursor (cs.dropWhile (· ≠ '%'))).1) := by
  cases cs with
  | nil => simp [pieces_nil]
  | cons c cs =>
    by_cases hc : c = '%'
    · subst hc
      simp
    · rw [pieces_other reader cursor hc, List.dropWhile_cons, List.takeWhile_cons,
        if_pos (by simpa using hc), if_pos (by simpa using hc)]
      exact ⟨rfl, merge_cons _ _⟩

/-- Text without a percent sign is scanned apart from what follows it. -/
theorem merge_pieces_literal {text : List Char} (h : '%' ∉ text) (cs : List Char) :
    (reader.pieces cursor (text ++ cs)).2 = (reader.pieces cursor cs).2 ∧
      merge (reader.pieces cursor (text ++ cs)).1 =
        cons (.literal (String.ofList text)) (merge (reader.pieces cursor cs).1) := by
  have ht : ∀ c ∈ text, decide (c ≠ '%') = true := by
    intro c hc
    simp only [decide_eq_true_eq]
    rintro rfl
    exact h hc
  obtain ⟨hn, hm⟩ := merge_pieces reader cursor cs
  obtain ⟨hn', hm'⟩ := merge_pieces reader cursor (text ++ cs)
  rw [List.dropWhile_append_of_pos ht] at hn' hm'
  rw [List.takeWhile_append_of_pos ht, String.ofList_append, cons_literal_append, ← hm] at hm'
  exact ⟨hn'.trans hn.symm, hm'⟩

end DirectiveReader

namespace Template

theorem ofPieces_congr {ps qs : List Piece} (h : merge ps = merge qs) (n : Nat) :
    ofPieces ps n = ofPieces qs n := by
  have ht : textOf ps = textOf qs := by rw [← textOf_merge, h, textOf_merge]
  have hb : literalBytes ps = literalBytes qs := by
    rw [← literalBytes_merge, h, literalBytes_merge]
  simp only [textOf] at ht
  simp only [ofPieces, h, ht, hb]

theorem compile_eq (format : String) :
    compile format = ofPieces (DirectiveReader.standard.pieces {} format.toList).1
      (DirectiveReader.standard.pieces {} format.toList).2 := rfl

end Template

end PercentFormat
