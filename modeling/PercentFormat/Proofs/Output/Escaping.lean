import PercentFormat.Proofs.Caching.Transparency
import PercentFormat.Proofs.Output.Markers
import PercentFormat.Proofs.Template.Resuming

/-!
# Escaped text

A text whose percent signs are doubled stands for itself in front of any format, right or wrong. It
names no argument, and the format behind it is compiled as if it stood alone.
-/

namespace PercentFormat

open Grammar Piece

/-! ## Scanning escapes -/

def escapedChars (text : List Char) : List Char :=
  text.flatMap fun c => if c = '%' then [c, c] else [c]

theorem toList_escape (s : String) : (Template.escape s).toList = escapedChars s.toList :=
  String.toList_ofList

namespace DirectiveReader

/-- Marks between two percent signs are lost. -/
theorem pieces_escape (marks : List Mark) (cursor : Cursor) (cs : List Char) :
    standard.pieces cursor ('%' :: (marks.map Mark.char ++ '%' :: cs)) =
      (.literal "%" :: (standard.pieces cursor cs).1, (standard.pieces cursor cs).2) := by
  have hread : standard.read cursor (marks.map Mark.char ++ '%' :: cs) =
      ⟨.literal "%", cursor, cs⟩ := Read.directive_escape marks cursor cs
  rw [pieces_percent, hread]

/-- Up to merging, escaped text is scanned apart from what follows it. -/
theorem merge_pieces_escaped (text : List Char) (cursor : Cursor) (cs : List Char) :
    (standard.pieces cursor (escapedChars text ++ cs)).2 = (standard.pieces cursor cs).2 ∧
      merge (standard.pieces cursor (escapedChars text ++ cs)).1 =
        cons (.literal (String.ofList text)) (merge (standard.pieces cursor cs).1) := by
  induction text with
  | nil => exact ⟨rfl, (cons_empty _).symm⟩
  | cons c text ih =>
    have htext : String.ofList (c :: text) = String.singleton c ++ String.ofList text := by
      rw [String.singleton_eq_ofList, ← String.ofList_append]
      rfl
    rw [htext, cons_literal_append, ← ih.2, ← ih.1]
    by_cases hc : c = '%'
    · subst hc
      have hchars : escapedChars ('%' :: text) ++ cs =
          '%' :: ([].map Mark.char ++ '%' :: (escapedChars text ++ cs)) := rfl
      rw [hchars, pieces_escape]
      exact ⟨rfl, merge_cons _ _⟩
    · have hchars : escapedChars (c :: text) ++ cs = [c] ++ (escapedChars text ++ cs) := by
        simp [escapedChars, hc]
      rw [hchars, String.singleton_eq_ofList]
      exact merge_pieces_literal standard cursor (by simpa using Ne.symm hc) _

end DirectiveReader

namespace Template

/-- A text as it is. -/
def verbatim (s : String) : Template := if s = "" then ⟨"", [], 0, 0⟩ else ofLiteral s 0

theorem ofPieces_verbatim (s : String) : ofPieces [.literal s] 0 = verbatim s := by
  by_cases hs : s = ""
  · subst hs
    rfl
  · rw [ofPieces_literal hs, verbatim, if_neg hs]

section

variable {s format front : String}

/-- A format that is scanned as a literal and then another format is compiled that way. -/
theorem compile_of_literal
    (h : (DirectiveReader.standard.pieces {} front.toList).2 =
        (DirectiveReader.standard.pieces {} format.toList).2 ∧
      merge (DirectiveReader.standard.pieces {} front.toList).1 =
        cons (.literal s) (merge (DirectiveReader.standard.pieces {} format.toList).1)) :
    compile front = verbatim s ++ compile format := by
  have hpieces := ofPieces_append [.literal s] (DirectiveReader.standard.pieces {} format.toList).1
    0 (DirectiveReader.standard.pieces {} format.toList).2
  rw [ofPieces_verbatim, ← compile_eq, Nat.zero_max] at hpieces
  rw [compile_eq front, h.1, ← hpieces]
  exact ofPieces_congr h.2 _

theorem required_verbatim_append (t : Template) : (verbatim s ++ t).required = t.required := by
  have h : (verbatim s).required = 0 := by
    unfold verbatim
    split <;> rfl
  exact (congrArg (max · t.required) h).trans (Nat.zero_max _)

theorem minSize_verbatim_append (t : Template) :
    (verbatim s ++ t).minSize = t.minSize + s.utf8ByteSize := by
  have h : (verbatim s).minSize = s.utf8ByteSize := by
    unfold verbatim
    split
    · next hs => rw [hs]; rfl
    · rfl
  exact (congrArg (· + t.minSize) h).trans (Nat.add_comm _ _)

theorem render_verbatim (args : List String) :
    (verbatim s).render args = s ++ surplusText args := by
  rw [← ofPieces_verbatim, render_ofPieces, List.map_singleton, String.join_cons, Piece.shown,
    String.join_nil, String.append_empty, List.drop_zero]

theorem render_verbatim_append (args : List String) :
    (verbatim s ++ compile format).render args = s ++ (compile format).render args := by
  rw [compile_eq, ← ofPieces_verbatim, ← ofPieces_append, render_ofPieces, render_ofPieces,
    Nat.zero_max, List.singleton_append, List.map_cons, String.join_cons, Piece.shown,
    String.append_assoc]

end

theorem verbatim_append_empty (s : String) : verbatim s ++ compile "" = verbatim s := by
  have hempty : compile "" = ofPieces [] 0 := by
    rw [compile_eq, String.toList_empty, DirectiveReader.pieces_nil]
  rw [hempty, ← ofPieces_verbatim, ← ofPieces_append, List.append_nil, Nat.max_self]

theorem compile_escape_append (s format : String) :
    compile (escape s ++ format) = verbatim s ++ compile format := by
  have h := DirectiveReader.merge_pieces_escaped s.toList {} format.toList
  rw [← toList_escape, ← String.toList_append, String.ofList_toList] at h
  exact compile_of_literal h

/-- A percent sign that is escaped with marks in between. -/
def markedEscape (marks : List Mark) : String :=
  String.ofList ('%' :: (marks.map Mark.char ++ ['%']))

theorem compile_markedEscape_append (marks : List Mark) (format : String) :
    compile (markedEscape marks ++ format) = verbatim "%" ++ compile format := by
  have hchars : (markedEscape marks ++ format).toList =
      '%' :: (marks.map Mark.char ++ '%' :: format.toList) := by
    simp [markedEscape]
  apply compile_of_literal
  rw [hchars, DirectiveReader.pieces_escape]
  exact ⟨rfl, merge_cons _ _⟩

end Template

namespace Formatter

/-- Escaped text is rendered as it is and goes in front of what any format is rendered to, whatever
was formatted before. By itself it compiles to a single literal, or to no token at all. Marks
between the two percent signs of an escape change nothing. -/
theorem sprintf_escape (s format : String) :
    (∀ args t t' calls calls',
      (((fresh .standard t).run calls).sprintf (Template.escape s ++ format) args).1 =
        s ++ (((fresh .standard t').run calls').sprintf format args).1) ∧
      Template.compile (Template.escape s ++ format) =
        Template.verbatim s ++ Template.compile format ∧
      (Template.compile (Template.escape s ++ format)).required =
        (Template.compile format).required ∧
      (Template.compile (Template.escape s ++ format)).minSize =
        (Template.compile format).minSize + s.utf8ByteSize ∧
      Template.compile (Template.escape s) = Template.verbatim s ∧
      ∀ marks, Template.compile (Template.markedEscape marks) = Template.verbatim "%" ∧
        Template.compile (Template.markedEscape marks ++ format) =
          Template.verbatim "%" ++ Template.compile format ∧
        ∀ args,
          (Template.compile (Template.markedEscape marks)).render args = "%" ++ surplusText args ∧
          (Template.compile (Template.markedEscape marks ++ format)).render args =
            "%" ++ (Template.compile format).render args := by
  have hescape := Template.compile_escape_append s format
  have hsound (t : Threshold) (calls : List Call) :
      Sound .standard ((fresh .standard t).run calls) :=
    (sound_fresh .standard t).run Compiler.faithful_standard calls
  refine ⟨?_, hescape, ?_, ?_, ?_, ?_⟩
  · intro args t t' calls calls'
    have hfront : (((fresh .standard t).run calls).sprintf (Template.escape s ++ format) args).1 =
        (Template.compile (Template.escape s ++ format)).render args := (hsound t calls).sprintf _ _
    have hrest : (((fresh .standard t').run calls').sprintf format args).1 =
        (Template.compile format).render args := (hsound t' calls').sprintf _ _
    rw [hfront, hrest, hescape, Template.render_verbatim_append]
  · rw [hescape, Template.required_verbatim_append]
  · rw [hescape, Template.minSize_verbatim_append]
  · have h := Template.compile_escape_append s ""
    rwa [String.append_empty, Template.verbatim_append_empty] at h
  · intro marks
    have hmarked := Template.compile_markedEscape_append marks format
    have halone := Template.compile_markedEscape_append marks ""
    rw [String.append_empty, Template.verbatim_append_empty] at halone
    refine ⟨halone, hmarked, fun args => ⟨?_, ?_⟩⟩
    · rw [halone, Template.render_verbatim]
    · rw [hmarked, Template.render_verbatim_append]

end Formatter

end PercentFormat
