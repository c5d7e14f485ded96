import Mathlib.Algebra.GroupWithZero.Nat
import Mathlib.Data.List.Chain
import PercentFormat.Template.Basic

/-!
# Pieces end to end

Merging keeps the text and the literal bytes of pieces, and its results are the lists in which no
literal is empty and no two literals meet.
-/

namespace PercentFormat.Piece

def isLiteral : Piece → Bool
  | .literal _ => true
  | .directive .. => false

@[simp] theorem isLiteral_literal (s : String) : (literal s).isLiteral = true := rfl

@[simp] theorem isLiteral_directive (c : Char) (d : Directive) :
    (directive c d).isLiteral = false := rfl

@[simp] theorem text_literal (s : String) : (literal s).text = s := rfl

@[simp] theorem text_directive (c : Char) (d : Directive) :
    (directive c d).text = String.singleton c := rfl

def textOf (ps : List Piece) : String := String.join (ps.map text)

@[simp] theorem textOf_nil : textOf [] = "" := rfl

@[simp] theorem textOf_cons (p : Piece) (ps : List Piece) :
    textOf (p :: ps) = p.text ++ textOf ps := by
  simp [textOf, String.join_cons]

@[simp] theorem textOf_append (ps qs : List Piece) :
    textOf (ps ++ qs) = textOf ps ++ textOf qs := by
  simp [textOf, String.join_append]

@[simp] theorem literalBytes_nil : literalBytes [] = 0 := rfl

@[simp] theorem literalBytes_cons (p : Piece) (ps : List Piece) :
    literalBytes (p :: ps) = p.literalSize + literalBytes ps := rfl

@[simp] theorem literalBytes_append (ps qs : List Piece) :
    literalBytes (ps ++ qs) = literalBytes ps + literalBytes qs := by
  induction ps with
  | nil => simp
  | cons p ps ih => simp [ih, Nat.add_assoc]

theorem literalBytes_eq_sum (ps : List Piece) :
    literalBytes ps =
      ((ps.filter isLiteral).map fun p => p.text.utf8ByteSize).sum := by
  induction ps with
  | nil => rfl
  | cons p ps ih =>
    cases p with
    | literal s =>
      rw [List.filter_cons_of_pos (isLiteral_literal s)]
      simp [Piece.literalSize, ih]
    | directive c d => simp [Piece.literalSize, ih]

/-! ## Putting a piece in front -/

@[simp] theorem cons_directive (c : Char) (d : Directive) (ps : List Piece) :
    cons (.directive c d) ps = .directive c d :: ps := rfl

@[simp] theorem cons_empty (ps : List Piece) : cons (.literal "") ps = ps := by
  simp [cons]

theorem cons_literal_literal {s : String} (hs : s ≠ "") (t : String) (ps : List Piece) :
    cons (.literal s) (.literal t :: ps) = .literal (s ++ t) :: ps := by
  simp [cons, hs]

theorem cons_literal_of_apart {s : String} (hs : s ≠ "") {ps : List Piece}
    (hp : ∀ p ∈ ps.head?, p.isLiteral = false) :
    cons (.literal s) ps = .literal s :: ps := by
  rcases ps with _ | ⟨p, ps⟩
  · simp [cons, hs]
  · cases p with
    | literal t => simp at hp
    | directive c d => simp [cons, hs]

theorem cons_literal_nil {s : String} (hs : s ≠ "") : cons (.literal s) [] = [.literal s] :=
  cons_literal_of_apart hs (by simp)

/-- A literal can be put in front in two parts. -/
theorem cons_literal_append (s t : String) (ps : List Piece) :
    cons (.literal (s ++ t)) ps = cons (.literal s) (cons (.literal t) ps) := by
  by_cases hs : s = ""
  · subst hs
    simp
  by_cases ht : t = ""
  · subst ht
    simp
  have hst : s ++ t ≠ "" := fun h => hs (String.append_eq_empty_iff.mp h).1
  rcases ps with _ | ⟨p, ps⟩
  · simp [cons, hs, ht, hst]
  · cases p with
    | literal u => simp [cons, hs, ht, hst, String.append_assoc]
    | directive c d => simp [cons, hs, ht, hst]

/-- The ways of putting a piece in front: an empty literal is dropped, two literals that meet are
made one, anything else stays apart. -/
inductive Joined : Piece → List Piece → List Piece → Prop
  | dropped (ps : List Piece) : Joined (.literal "") ps ps
  | one {s : String} (nonempty : s ≠ "") (t : String) (ps : List Piece) :
      Joined (.literal s) (.literal t :: ps) (.literal (s ++ t) :: ps)
  | apart {p : Piece} {ps : List Piece} (nonempty : p ≠ .literal "")
      (apart : ∀ q ∈ ps.head?, ¬ (p.isLiteral = true ∧ q.isLiteral = true)) :
      Joined p ps (p :: ps)

theorem cons_joined (p : Piece) (ps : List Piece) : Joined p ps (cons p ps) := by
  cases p with
  | directive c d => exact .apart (by simp) (by simp)
  | literal s =>
    by_cases hs : s = ""
    · rw [hs, cons_empty]
      exact .dropped ps
    have hne : Piece.literal s ≠ .literal "" := by simpa using hs
    rcases ps with _ | ⟨q, ps⟩
    · rw [cons_literal_of_apart hs (by simp)]
      exact .apart hne (by simp)
    · cases q with
      | literal t =>
        rw [cons_literal_literal hs]
        exact .one hs t ps
      | directive c d =>
        rw [cons_literal_of_apart hs (by simp)]
        exact .apart hne (by simp)

/-- No literal is empty and no two literals meet. -/
structure Merged (ps : List Piece) : Prop where
  nonempty : .literal "" ∉ ps
  apart : ps.IsChain fun p q => ¬ (p.isLiteral = true ∧ q.isLiteral = true)

theorem merged_nil : Merged [] := ⟨by simp, .nil⟩

namespace Joined

variable {p : Piece} {ps qs : List Piece}

theorem textOf_eq (h : Joined p ps qs) : textOf qs = p.text ++ textOf ps := by
  cases h with
  | dropped => simp
  | one hs t ps => simp [String.append_assoc]
  | apart => rw [textOf_cons]

theorem literalBytes_eq (h : Joined p ps qs) :
    literalBytes qs = p.literalSize + literalBytes ps := by
  cases h with
  | dropped => simp [literalSize]
  | one hs t ps => simp [literalSize, String.utf8ByteSize_append, Nat.add_assoc]
  | apart => rw [literalBytes_cons]

theorem directive_mem (h : Joined p ps qs) {c : Char} {d : Directive} :
    .directive c d ∈ qs ↔ .directive c d ∈ p :: ps := by
  cases h with
  | dropped => simp
  | one hs t ps => simp
  | apart => rfl

theorem merged (h : Joined p ps qs) (hm : Merged ps) : Merged qs := by
  have hne := hm.nonempty
  cases h with
  | dropped => exact hm
  | one hs t ps =>
    obtain ⟨hhead, hrest⟩ := List.isChain_cons.mp hm.apart
    refine ⟨?_, List.isChain_cons.mpr ⟨fun q hq => hhead q hq, hrest⟩⟩
    simp only [List.mem_cons, Piece.literal.injEq, not_or] at hne ⊢
    exact ⟨fun he => hs (String.append_eq_empty_iff.mp he.symm).1, hne.2⟩
  | apart hp ha =>
    refine ⟨?_, List.isChain_cons.mpr ⟨ha, hm.apart⟩⟩
    simp only [List.mem_cons, not_or]
    exact ⟨fun he => hp he.symm, hne⟩

end Joined

/-! ## Merged pieces -/

@[simp] theorem merge_nil : merge [] = [] := rfl

@[simp] theorem merge_cons (p : Piece) (ps : List Piece) :
    merge (p :: ps) = cons p (merge ps) := rfl

theorem textOf_merge (ps : List Piece) : textOf (merge ps) = textOf ps := by
  induction ps with
  | nil => rfl
  | cons p ps ih => rw [merge_cons, (cons_joined p _).textOf_eq, ih, textOf_cons]

theorem literalBytes_merge (ps : List Piece) : literalBytes (merge ps) = literalBytes ps := by
  induction ps with
  | nil => rfl
  | cons p ps ih => rw [merge_cons, (cons_joined p _).literalBytes_eq, ih, literalBytes_cons]

/-- Merging neither makes directives nor loses any. -/
theorem directive_mem_merge {c : Char} {d : Directive} {ps : List Piece} :
    .directive c d ∈ merge ps ↔ .directive c d ∈ ps := by
  induction ps with
  | nil => rfl
  | cons p ps ih =>
    rw [merge_cons, (cons_joined p _).directive_mem, List.mem_cons, List.mem_cons, ih]

theorem merged_merge (ps : List Piece) : Merged (merge ps) := by
  induction ps with
  | nil => exact merged_nil
  | cons p ps ih => exact (cons_joined p _).merged ih

end PercentFormat.Piece
