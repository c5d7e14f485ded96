import Mathlib.Logic.Function.Defs
import PercentFormat.Text.Lines

/-!
# Lines and parts of a text

The pieces of a text are those of the library's `splitOn`, and determine it. Lines that end in
newlines are found again. A double colon put somewhere in front of a text adds a
part, whatever colons stand around it.
-/

namespace PercentFormat.Text

theorem pieces_ne_nil (sep : Char) (cs : List Char) : pieces sep cs ≠ [] := by
  cases cs with
  | nil => simp [pieces]
  | cons c cs =>
    rw [pieces]
    split
    · simp
    · split <;> simp

theorem pieces_append {sep : Char} {line : List Char} (h : sep ∉ line) (rest : List Char) :
    pieces sep (line ++ sep :: rest) = line :: pieces sep rest := by
  induction line with
  | nil => rw [List.nil_append, pieces, if_pos rfl]
  | cons c cs ih =>
    rw [List.mem_cons, not_or] at h
    rw [List.cons_append, pieces, if_neg (Ne.symm h.1), ih h.2]

theorem pieces_eq_splitOn (sep : Char) (cs : List Char) : pieces sep cs = cs.splitOn sep := by
  induction cs with
  | nil => rw [pieces, List.splitOn_nil]
  | cons c cs ih =>
    rw [pieces, List.splitOn_cons_eq_if_modifyHead, ih]
    by_cases h : c = sep
    · rw [if_pos h, if_pos (beq_iff_eq.mpr h)]
    · rw [if_neg h, if_neg (by rwa [beq_iff_eq])]
      obtain ⟨p, ps, hps⟩ := List.exists_cons_of_ne_nil (ih ▸ pieces_ne_nil sep cs)
      rw [hps, List.modifyHead_cons]

theorem splitOn_injective (sep : Char) : Function.Injective (List.splitOn sep) := by
  intro cs ds h
  have hjoined := congrArg (List.intercalate [sep]) h
  rwa [List.intercalate_splitOn, List.intercalate_splitOn] at hjoined

theorem pieces_terminated {ls : List (List Char)} (h : ∀ line ∈ ls, '\n' ∉ line) :
    pieces '\n' (ls.flatMap (· ++ ['\n'])) = ls ++ [[]] := by
  induction ls with
  | nil => rfl
  | cons line ls ih =>
    rw [List.forall_mem_cons] at h
    rw [List.flatMap_cons, List.append_assoc, List.singleton_append, pieces_append h.1, ih h.2]
    rfl

theorem terminated_inj {ls ms : List (List Char)} (hl : ∀ line ∈ ls, '\n' ∉ line)
    (hm : ∀ line ∈ ms, '\n' ∉ line)
    (h : ls.flatMap (· ++ ['\n']) = ms.flatMap (· ++ ['\n'])) : ls = ms := by
  have hpieces := congrArg (pieces '\n') h
  rw [pieces_terminated hl, pieces_terminated hm] at hpieces
  exact List.append_cancel_right hpieces

/-- A line that stays as it is when it is read. -/
structure IsLine (line : List Char) : Prop where
  newline : '\n' ∉ line
  ending : line.getLast? ≠ some '\r'

theorem lines_append {line : List Char} (h : IsLine line) (rest : List Char) :
    lines (line ++ '\n' :: rest) = line :: lines rest := by
  rw [lines, pieces_append h.newline]
  obtain ⟨p, ps, hps⟩ := List.exists_cons_of_ne_nil (pieces_ne_nil '\n' rest)
  rw [lines, hps, linesOfPieces, dropReturn, if_neg h.ending]
  simp

theorem lines_terminated {ls : List (List Char)} (h : ∀ line ∈ ls, IsLine line) :
    lines (ls.flatMap (· ++ ['\n'])) = ls := by
  induction ls with
  | nil => rfl
  | cons line ls ih =>
    rw [List.flatMap_cons, List.append_assoc, List.singleton_append,
      lines_append (h line List.mem_cons_self), ih fun l hl => h l (List.mem_cons_of_mem line hl)]

/-! ## Double colons -/

theorem colonParts_pair (cs : List Char) : colonParts (':' :: ':' :: cs) = colonParts cs + 1 := by
  rw [colonParts]

theorem colonParts_other {c d : Char} (h : ¬ (c = ':' ∧ d = ':')) (cs : List Char) :
    colonParts (c :: d :: cs) = colonParts (d :: cs) := by
  rw [colonParts]
  intro rest hc hrest
  exact h ⟨hc, (List.cons.inj hrest).1⟩

/-- A character in front adds one part at the most and takes none away. Both have to be shown at
once: a colon in front may break the pair behind it up, and makes a new one. -/
theorem colonParts_cons (c : Char) (cs : List Char) :
    colonParts cs ≤ colonParts (c :: cs) ∧ colonParts (c :: cs) ≤ colonParts cs + 1 := by
  induction cs generalizing c with
  | nil => simp [colonParts]
  | cons d ds ih =>
    obtain ⟨hle, hlt⟩ := ih d
    by_cases h : c = ':' ∧ d = ':'
    · rw [h.1, h.2, colonParts_pair]
      rw [h.2] at hle hlt
      omega
    · rw [colonParts_other h]
      omega

theorem colonParts_append (pre cs : List Char) : colonParts cs ≤ colonParts (pre ++ cs) := by
  induction pre with
  | nil => exact Nat.le_refl _
  | cons c pre ih => exact Nat.le_trans ih (colonParts_cons c (pre ++ cs)).1

theorem colonParts_pos (cs : List Char) : 1 ≤ colonParts cs := by
  have h := colonParts_append cs []
  rwa [List.append_nil] at h

end PercentFormat.Text
