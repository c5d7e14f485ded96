import PercentFormat.Proofs.Template.Tokens

/-!
# Templates end to end

A template can be put behind another: its tokens are moved to where its text begins, and literals
that meet become one. Pieces that are compiled in two portions give the same template as at once.
-/

namespace PercentFormat

/-! ## Tokens -/

namespace Token

/-- A token of a text that another text was put in front of. -/
def shift (offset : Nat) : Token → Token
  | .literal span => .literal ⟨offset + span.start, offset + span.stop⟩
  | .directive span d => .directive ⟨offset + span.start, offset + span.stop⟩ d

/-- Tokens of a text behind those of the text in front of it, which ends at an offset. -/
def join (offset : Nat) : List Token → List Token → List Token
  | [.literal front], .literal back :: ks =>
    .literal ⟨front.start, offset + back.stop⟩ :: ks.map (shift offset)
  | [], ks => ks.map (shift offset)
  | j :: js, ks => j :: join offset js ks

end Token

instance : Append Template where
  append t u :=
    { text := t.text ++ u.text
      tokens := Token.join t.text.utf8ByteSize t.tokens u.tokens
      required := max t.required u.required
      minSize := t.minSize + u.minSize }

/-! ## Pieces -/

namespace Piece

def join : List Piece → List Piece → List Piece
  | [.literal s], .literal t :: qs => .literal (s ++ t) :: qs
  | [], qs => qs
  | p :: ps, qs => p :: join ps qs

theorem join_cons_cons (p q : Piece) (ps qs : List Piece) :
    join (p :: q :: ps) qs = p :: join (q :: ps) qs := by
  cases p <;> rfl

theorem join_directive (c : Char) (d : Directive) (ps qs : List Piece) :
    join (.directive c d :: ps) qs = .directive c d :: join ps qs := by
  cases ps <;> rfl

theorem join_literal {s : String} (hs : s ≠ "") (qs : List Piece) :
    join [.literal s] qs = cons (.literal s) qs := by
  rcases qs with _ | ⟨q, qs⟩
  · rw [cons_literal_nil hs]
    rfl
  cases q with
  | literal t => rw [cons_literal_literal hs, join]
  | directive c d =>
    rw [cons_literal_of_apart hs (by simp)]
    rfl

theorem cons_join (p : Piece) (ps qs : List Piece) : cons p (join ps qs) = join (cons p ps) qs := by
  cases p with
  | directive c d => rw [cons_directive, cons_directive, join_directive]
  | literal s =>
    by_cases hs : s = ""
    · rw [hs, cons_empty, cons_empty]
    rcases ps with _ | ⟨p, ps⟩
    · rw [cons_literal_nil hs, join_literal hs]
      rfl
    cases p with
    | directive c d =>
      rw [join_directive, cons_literal_of_apart hs (by simp),
        cons_literal_of_apart hs (by simp), join_cons_cons, join_directive]
    | literal t =>
      rcases ps with _ | ⟨p, ps⟩
      · rw [cons_literal_literal hs]
        rcases qs with _ | ⟨q, qs⟩
        · exact cons_literal_literal hs t []
        cases q with
        | directive c d => exact cons_literal_literal hs t (.directive c d :: qs)
        | literal u =>
          rw [join, join, cons_literal_literal hs, String.append_assoc]
      · rw [join_cons_cons, cons_literal_literal hs, cons_literal_literal hs, join_cons_cons]

/-- Portions can be merged on their own before they are joined. -/
theorem merge_append (ps qs : List Piece) : merge (ps ++ qs) = join (merge ps) (merge qs) := by
  induction ps with
  | nil => rfl
  | cons p ps ih => rw [List.cons_append, merge_cons, ih, cons_join, merge_cons]

theorem layout_add (offset start : Nat) (ps : List Piece) :
    layout (offset + start) ps = (layout start ps).map (Token.shift offset) := by
  induction ps generalizing start with
  | nil => rfl
  | cons p ps ih =>
    rw [layout_cons, layout_cons, List.map_cons, Nat.add_assoc, ih]
    cases p <;> simp [token, Token.shift, Nat.add_assoc]

theorem layout_join (start : Nat) (ps qs : List Piece) :
    layout start (join ps qs) =
      Token.join (start + (textOf ps).utf8ByteSize) (layout start ps) (layout 0 qs) := by
  induction ps generalizing start with
  | nil =>
    rw [layout_nil, Token.join, ← layout_add, textOf_nil]
    rfl
  | cons p ps ih =>
    have hsize : start + (textOf (p :: ps)).utf8ByteSize =
        start + p.text.utf8ByteSize + (textOf ps).utf8ByteSize := by
      rw [textOf_cons, String.utf8ByteSize_append, Nat.add_assoc]
    have hrest := ih (start + p.text.utf8ByteSize)
    rw [← hsize] at hrest
    rcases ps with _ | ⟨q, ps⟩
    · cases p with
      | directive c d =>
        rw [join_directive, layout_cons, hrest, layout_cons]
        rfl
      | literal s =>
        rcases qs with _ | ⟨q, qs⟩
        · rfl
        cases q with
        | directive c d =>
          have hjoin : join [.literal s] (.directive c d :: qs) =
              .literal s :: join [] (.directive c d :: qs) := rfl
          rw [hjoin, layout_cons, hrest]
          rfl
        | literal t =>
          simp only [join, layout, Token.join, textOf_cons, textOf_nil, text_literal,
            String.append_empty, String.utf8ByteSize_append]
          rw [Nat.zero_add, ← layout_add, Nat.add_assoc]
    · have hjoin (k j : Token) (js ks : List Token) (n : Nat) :
          Token.join n (k :: j :: js) ks = k :: Token.join n (j :: js) ks := by
        cases k <;> rfl
      rw [join_cons_cons, layout_cons, hrest, layout_cons start p, layout_cons, hjoin]

end Piece

namespace Template

theorem ofPieces_append (ps qs : List Piece) (m n : Nat) :
    ofPieces (ps ++ qs) (max m n) = ofPieces ps m ++ ofPieces qs n := by
  have htext : (ofPieces (ps ++ qs) (max m n)).text =
      (ofPieces ps m).text ++ (ofPieces qs n).text := Piece.textOf_append ps qs
  have hsize : (ofPieces ps m).text.utf8ByteSize =
      0 + (Piece.textOf (Piece.merge ps)).utf8ByteSize := by
    rw [Piece.textOf_merge, Nat.zero_add]
    rfl
  have htokens : (ofPieces (ps ++ qs) (max m n)).tokens =
      Token.join (ofPieces ps m).text.utf8ByteSize (ofPieces ps m).tokens
        (ofPieces qs n).tokens := by
    rw [hsize]
    simp only [ofPieces, Piece.merge_append, Piece.layout_join]
  have hbytes : (ofPieces (ps ++ qs) (max m n)).minSize =
      (ofPieces ps m).minSize + (ofPieces qs n).minSize := Piece.literalBytes_append ps qs
  have hjoined : ofPieces ps m ++ ofPieces qs n =
      ⟨(ofPieces ps m).text ++ (ofPieces qs n).text,
        Token.join (ofPieces ps m).text.utf8ByteSize (ofPieces ps m).tokens
          (ofPieces qs n).tokens, max m n,
        (ofPieces ps m).minSize + (ofPieces qs n).minSize⟩ := rfl
  rw [hjoined, Template.mk.injEq]
  exact ⟨htext, htokens, rfl, hbytes⟩

/-- A single literal, some arguments being named in what it stands for. -/
def ofLiteral (s : String) (required : Nat) : Template where
  text := s
  tokens := [.literal ⟨0, s.utf8ByteSize⟩]
  required := required
  minSize := s.utf8ByteSize

theorem ofPieces_literal {s : String} (hs : s ≠ "") (n : Nat) :
    ofPieces [.literal s] n = ofLiteral s n := by
  have hmerge : Piece.merge [.literal s] = [.literal s] := Piece.cons_literal_nil hs
  simp [ofPieces, hmerge, Piece.token, ofLiteral, Piece.literalSize, String.join_cons]

end Template

end PercentFormat
