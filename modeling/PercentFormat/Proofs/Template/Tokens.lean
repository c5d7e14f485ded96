import Mathlib.Data.List.Forall2
import PercentFormat.Proofs.Template.Pieces
import PercentFormat.Proofs.Text.Utf8

/-!
# Tokens over a text

The tokens of pieces laid end to end tile the text of the pieces, and each token cuts the text of
its own piece out of it.
-/

namespace PercentFormat

namespace Piece

/-- The token of a piece that starts at a byte offset. -/
def token (start : Nat) : Piece → Token
  | .literal s => .literal ⟨start, start + s.utf8ByteSize⟩
  | .directive c d => .directive ⟨start, start + c.utf8Size⟩ d

theorem token_span (start : Nat) (p : Piece) :
    (p.token start).span = ⟨start, start + p.text.utf8ByteSize⟩ := by
  cases p with
  | literal s => rfl
  | directive c d => simp [token, Token.span, text, String.utf8ByteSize_singleton]

@[simp] theorem token_isLiteral (start : Nat) (p : Piece) :
    (p.token start).isLiteral = p.isLiteral := by
  cases p <;> rfl

@[simp] theorem layout_nil (start : Nat) : layout start [] = [] := rfl

@[simp] theorem layout_cons (start : Nat) (p : Piece) (ps : List Piece) :
    layout start (p :: ps) = p.token start :: layout (start + p.text.utf8ByteSize) ps := by
  cases p with
  | literal s => rfl
  | directive c d => simp [layout, token, text, String.utf8ByteSize_singleton]

/-- Each token starts where the text of the pieces before it ends. -/
theorem layout_eq_mapIdx (start : Nat) (ps : List Piece) :
    layout start ps =
      ps.mapIdx fun k p => p.token (start + (textOf (ps.take k)).utf8ByteSize) := by
  induction ps generalizing start with
  | nil => rfl
  | cons p ps ih =>
    rw [layout_cons, ih, List.mapIdx_cons]
    simp [String.utf8ByteSize_append, Nat.add_assoc]

theorem isLiteral_layout (start : Nat) (ps : List Piece) :
    (layout start ps).map Token.isLiteral = ps.map isLiteral := by
  induction ps generalizing start with
  | nil => rfl
  | cons p ps ih => simp [ih]

end Piece

/-! ## Spans -/

namespace Span

/-- Spans that lie end to end from one byte offset to another. -/
def Tile (start : Nat) : List Span → Nat → Prop
  | [], stop => start = stop
  | span :: spans, stop => span.start = start ∧ Tile span.stop spans stop

/-- The part between two texts is cut out as it was. -/
theorem cut_append (x y z : String) :
    cut ⟨x.utf8ByteSize, x.utf8ByteSize + y.utf8ByteSize⟩ (x ++ (y ++ z)) = y := by
  have hx : x.toUTF8.size = x.utf8ByteSize := x.size_toByteArray
  have hy : y.toUTF8.size = y.utf8ByteSize := y.size_toByteArray
  have hstop : x.utf8ByteSize + y.utf8ByteSize ≤ (x ++ (y ++ z)).utf8ByteSize := by
    simp only [String.utf8ByteSize_append]
    omega
  have hextract : (x ++ (y ++ z)).toUTF8.extract x.utf8ByteSize
      (x.utf8ByteSize + y.utf8ByteSize) = y.toUTF8 := by
    have hright := ByteArray.extract_append_size_add' (i := 0) (j := y.utf8ByteSize)
      (b := (y ++ z).toUTF8) hx.symm
    rw [toUTF8_append, ← Nat.add_zero x.utf8ByteSize, Nat.add_assoc, Nat.zero_add, hright,
      toUTF8_append, ByteArray.extract_append_eq_left hy.symm]
  rw [cut, if_pos hstop, hextract, fromUTF8?_toUTF8]
  rfl

end Span

/-! ## Tokens and their pieces -/

/-- A token stands for a piece in a text. -/
structure Token.Shows (text : String) (k : Token) (p : Piece) : Prop where
  token : k = p.token k.span.start
  cut : k.span.cut text = p.text
  start : (⟨k.span.start⟩ : String.Pos.Raw).IsValid text
  stop : (⟨k.span.stop⟩ : String.Pos.Raw).IsValid text

namespace Token.Shows

variable {text : String} {k : Token} {p : Piece}

theorem isLiteral_eq (h : k.Shows text p) : k.isLiteral = p.isLiteral := by
  rw [h.token, Piece.token_isLiteral]

theorem exists_letter {span : Span} {d : Directive} (h : (Token.directive span d).Shows text p) :
    ∃ c, p = .directive c d ∧ span.cut text = String.singleton c := by
  have ht := h.token
  have hc := h.cut
  cases p with
  | literal s => simp [Piece.token] at ht
  | directive c e =>
    simp only [Piece.token, Token.directive.injEq] at ht
    exact ⟨c, by rw [ht.2], hc⟩

end Token.Shows

/-- The literals among tokens have the texts of the literals among their pieces. -/
theorem Token.literals_of_shows {text : String} {ks : List Token} {ps : List Piece}
    (h : List.Forall₂ (Token.Shows text) ks ps) :
    (ks.filter Token.isLiteral).map (fun k => k.span.cut text) =
      (ps.filter Piece.isLiteral).map Piece.text := by
  induction h with
  | nil => rfl
  | cons hk _ ih =>
    rw [List.filter_cons, List.filter_cons, hk.isLiteral_eq]
    split
    · rw [List.map_cons, List.map_cons, ih, hk.cut]
    · exact ih

theorem Token.exists_shown {text : String} {ks : List Token} {ps : List Piece}
    (h : List.Forall₂ (Token.Shows text) ks ps) {k : Token} (hk : k ∈ ks) :
    ∃ p ∈ ps, k.Shows text p := by
  induction h with
  | nil => simp at hk
  | @cons j q ks ps hj _ ih =>
    rcases List.mem_cons.mp hk with rfl | hk
    · exact ⟨q, by simp, hj⟩
    · obtain ⟨p, hp, hs⟩ := ih hk
      exact ⟨p, List.mem_cons_of_mem _ hp, hs⟩

namespace Piece

theorem token_shows (before : String) (p : Piece) (behind : String) :
    (p.token before.utf8ByteSize).Shows (before ++ (p.text ++ behind)) p := by
  refine ⟨?_, ?_, ?_, ?_⟩
  · rw [token_span]
  · rw [token_span, Span.cut_append]
  · rw [token_span, String.Pos.Raw.isValid_iff_exists_append]
    exact ⟨before, p.text ++ behind, rfl, rfl⟩
  · rw [token_span, String.Pos.Raw.isValid_iff_exists_append]
    refine ⟨before ++ p.text, behind, String.append_assoc.symm, ?_⟩
    simp [String.Pos.Raw.ext_iff, String.utf8ByteSize_append]

theorem layout_shows (before : String) (ps : List Piece) :
    List.Forall₂ (Token.Shows (before ++ textOf ps)) (layout before.utf8ByteSize ps) ps := by
  induction ps generalizing before with
  | nil => exact .nil
  | cons p ps ih =>
    have ht := ih (before ++ p.text)
    rw [String.utf8ByteSize_append, String.append_assoc] at ht
    rw [layout_cons, textOf_cons]
    exact .cons (token_shows before p _) ht

theorem layout_tile (start : Nat) (ps : List Piece) :
    Span.Tile start ((layout start ps).map Token.span) (start + (textOf ps).utf8ByteSize) := by
  induction ps generalizing start with
  | nil => rfl
  | cons p ps ih =>
    have ht := ih (start + p.text.utf8ByteSize)
    rw [layout_cons, List.map_cons, token_span, textOf_cons, String.utf8ByteSize_append,
      ← Nat.add_assoc]
    exact ⟨rfl, ht⟩

end Piece

end PercentFormat
