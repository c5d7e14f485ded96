import PercentFormat.Proofs.Text.Lines

/-!
# Where the lines of a text stand

A line has one number more than there are newlines in front of it, and ends at a newline, at a
carriage return and a newline, or with the text. Behind whole lines the lines of a text are found
again, and how a line ends does not matter.
-/

namespace PercentFormat.Text

variable {cs ds front line : List Char} {n : Nat}

/-- What is put behind whole lines begins a line. -/
def Whole (cs : List Char) : Prop := cs = [] ∨ cs.getLast? = some '\n'

theorem getLast?_append_of_eq_some {c : Char} (h : ds.getLast? = some c) (cs : List Char) :
    (cs ++ ds).getLast? = some c := by
  rw [List.getLast?_append, h, Option.some_or]

theorem whole_append_newline (cs : List Char) : Whole (cs ++ ['\n']) :=
  .inr List.getLast?_concat

theorem Whole.append (hc : Whole cs) (hd : Whole ds) : Whole (cs ++ ds) := by
  rcases hd with rfl | hd
  · rwa [List.append_nil]
  · exact .inr (getLast?_append_of_eq_some hd cs)

/-- Every text is whole lines with a line behind them that has no end yet. -/
theorem exists_whole_append (cs : List Char) :
    ∃ front line, cs = front ++ line ∧ Whole front ∧ '\n' ∉ line := by
  induction cs with
  | nil => exact ⟨[], [], rfl, .inl rfl, List.not_mem_nil⟩
  | cons c cs ih =>
    obtain ⟨front, line, rfl, hfront, hline⟩ := ih
    by_cases hc : c = '\n'
    · subst hc
      exact ⟨'\n' :: front, line, rfl, (whole_append_newline []).append hfront, hline⟩
    · cases hfront with
      | inl hnil =>
        subst hnil
        refine ⟨[], c :: line, rfl, .inl rfl, ?_⟩
        rw [List.mem_cons, not_or]
        exact ⟨Ne.symm hc, hline⟩
      | inr hlast =>
        exact ⟨c :: front, line, rfl, .inr (getLast?_append_of_eq_some hlast [c]), hline⟩

/-! ## Lines behind lines -/

theorem length_pieces (sep : Char) (cs : List Char) :
    (pieces sep cs).length = cs.count sep + 1 := by
  induction cs with
  | nil => rfl
  | cons c cs ih =>
    rw [pieces, List.count_cons]
    by_cases hc : c = sep
    · rw [if_pos hc, if_pos (beq_iff_eq.mpr hc), List.length_cons, ih]
    · rw [if_neg hc, if_neg (by rwa [beq_iff_eq]), Nat.add_zero, ← ih]
      obtain ⟨p, ps, hps⟩ := List.exists_cons_of_ne_nil (pieces_ne_nil sep cs)
      rw [hps]
      rfl

theorem pieces_of_not_mem {sep : Char} (h : sep ∉ cs) : pieces sep cs = [cs] := by
  have happend := pieces_append h []
  rw [pieces_eq_splitOn, List.splitOn_append_cons_self, ← pieces_eq_splitOn] at happend
  exact List.append_cancel_right happend

theorem linesOfPieces_append {ps qs : List (List Char)} (h : qs ≠ []) :
    linesOfPieces (ps ++ qs) = ps.map dropReturn ++ linesOfPieces qs := by
  obtain ⟨q, qs, rfl⟩ := List.exists_cons_of_ne_nil h
  induction ps with
  | nil => rfl
  | cons p ps ih =>
    rw [List.map_cons, List.cons_append, List.cons_append, ← ih]
    cases ps <;> rfl

theorem lines_append_newline (cs ds : List Char) :
    lines (cs ++ '\n' :: ds) = (pieces '\n' cs).map dropReturn ++ lines ds := by
  rw [lines, pieces_eq_splitOn, List.splitOn_append_cons_self, ← pieces_eq_splitOn,
    ← pieces_eq_splitOn, linesOfPieces_append (pieces_ne_nil '\n' ds), lines]

theorem Whole.lines_append (h : Whole cs) (ds : List Char) :
    lines (cs ++ ds) = lines cs ++ lines ds := by
  rcases h with rfl | h
  · rfl
  · obtain ⟨front, rfl⟩ := List.getLast?_eq_some_iff.mp h
    have hnil : lines [] = [] := rfl
    rw [List.append_assoc, List.singleton_append, lines_append_newline, lines_append_newline, hnil,
      List.append_nil]

theorem Whole.length_lines (h : Whole cs) : (lines cs).length = cs.count '\n' := by
  rcases h with rfl | h
  · rfl
  · obtain ⟨front, rfl⟩ := List.getLast?_eq_some_iff.mp h
    have hnil : lines [] = [] := rfl
    rw [lines_append_newline, hnil, List.append_nil, List.length_map, length_pieces,
      List.count_append, List.count_singleton_self]

theorem lines_first (h : '\n' ∉ line) (rest : List Char) :
    lines (line ++ '\n' :: rest) = dropReturn line :: lines rest := by
  rw [lines_append_newline, pieces_of_not_mem h, List.map_singleton, List.singleton_append]

/-! ## The ends of lines -/

theorem lines_of_not_mem (h : '\n' ∉ line) (hne : line ≠ []) : lines line = [line] := by
  rw [lines, pieces_of_not_mem h, linesOfPieces, if_neg hne]

theorem dropReturn_append_return (line : List Char) : dropReturn (line ++ ['\r']) = line := by
  rw [dropReturn, if_pos List.getLast?_concat, List.dropLast_concat]

theorem lines_append_return (h : '\n' ∉ line) (rest : List Char) :
    lines (line ++ '\r' :: '\n' :: rest) = line :: lines rest := by
  have hmem : '\n' ∉ line ++ ['\r'] := by simp [h]
  have hsplit : line ++ '\r' :: '\n' :: rest = (line ++ ['\r']) ++ '\n' :: rest := by simp
  rw [hsplit, lines_first hmem, dropReturn_append_return]

theorem lines_return_newline (h : cs.getLast? ≠ some '\r') (ds : List Char) :
    lines (cs ++ '\r' :: '\n' :: ds) = lines (cs ++ '\n' :: ds) := by
  -- Only the line that is still open can end in a carriage return that is dropped.
  obtain ⟨front, line, rfl, hfront, hline⟩ := exists_whole_append cs
  have hending : line.getLast? ≠ some '\r' :=
    fun hlast => h (getLast?_append_of_eq_some hlast front)
  rw [List.append_assoc, List.append_assoc, hfront.lines_append, hfront.lines_append,
    lines_append_return hline, lines_append ⟨hline, hending⟩]

/-- A last line may be given an end. -/
theorem lines_append_end (h : ¬ Whole cs) : lines (cs ++ ['\r', '\n']) = lines cs := by
  obtain ⟨front, line, rfl, hfront, hline⟩ := exists_whole_append cs
  have hne : line ≠ [] := by
    rintro rfl
    rw [List.append_nil] at h
    exact h hfront
  rw [List.append_assoc, hfront.lines_append, hfront.lines_append, lines_append_return hline,
    lines_of_not_mem hline hne]
  rfl

/-! ## Numbers of lines -/

/-- A text has a line with a number. -/
inductive HasLine : List Char → Nat → List Char → Prop
  | newline {line : List Char} (front : List Char) (before : Whole front) (isLine : IsLine line)
      (back : List Char) : HasLine (front ++ (line ++ '\n' :: back)) (front.count '\n' + 1) line
  | returnNewline {line : List Char} (front : List Char) (before : Whole front) (free : '\n' ∉ line)
      (back : List Char) :
      HasLine (front ++ (line ++ '\r' :: '\n' :: back)) (front.count '\n' + 1) line
  | last {line : List Char} (front : List Char) (before : Whole front) (free : '\n' ∉ line)
      (nonempty : line ≠ []) : HasLine (front ++ line) (front.count '\n' + 1) line

theorem HasLine.behind (hfront : Whole front) (h : HasLine cs n line) :
    HasLine (front ++ cs) (front.count '\n' + n) line := by
  cases h with
  | newline middle before isLine back =>
    rw [← List.append_assoc, ← Nat.add_assoc, ← List.count_append]
    exact .newline _ (hfront.append before) isLine back
  | returnNewline middle before free back =>
    rw [← List.append_assoc, ← Nat.add_assoc, ← List.count_append]
    exact .returnNewline _ (hfront.append before) free back
  | last middle before free nonempty =>
    rw [← List.append_assoc, ← Nat.add_assoc, ← List.count_append]
    exact .last _ (hfront.append before) free nonempty

theorem HasLine.subset (h : HasLine cs n line) : line ⊆ cs := by
  cases h <;> simp

theorem HasLine.getElem?_lines (h : HasLine cs n line) :
    ∃ i, (lines cs)[i]? = some line ∧ n = i + 1 := by
  have hbehind {front : List Char} (hfront : Whole front) {rest : List Char}
      {ls : List (List Char)} (hrest : lines rest = line :: ls) :
      (lines (front ++ rest))[front.count '\n']? = some line := by
    rw [hfront.lines_append, ← hfront.length_lines, List.getElem?_append_right (Nat.le_refl _),
      Nat.sub_self, hrest, List.getElem?_cons_zero]
  cases h with
  | newline front before isLine back => exact ⟨_, hbehind before (lines_append isLine back), rfl⟩
  | returnNewline front before free back =>
    exact ⟨_, hbehind before (lines_append_return free back), rfl⟩
  | last front before free nonempty =>
    exact ⟨_, hbehind before (lines_of_not_mem free nonempty), rfl⟩

theorem HasLine.first (h : '\n' ∉ line) (rest : List Char) :
    HasLine (line ++ '\n' :: rest) 1 (dropReturn line) := by
  by_cases hlast : line.getLast? = some '\r'
  · obtain ⟨line, rfl⟩ := List.getLast?_eq_some_iff.mp hlast
    rw [dropReturn_append_return, List.append_assoc, List.singleton_append]
    exact .returnNewline [] (.inl rfl) (by simpa using h) rest
  · rw [dropReturn, if_neg hlast]
    exact .newline [] (.inl rfl) ⟨h, hlast⟩ rest

theorem HasLine.only (hmem : '\n' ∉ cs) {i : Nat} (h : (lines cs)[i]? = some line) :
    HasLine cs (i + 1) line := by
  by_cases hne : cs = []
  · subst hne
    exact absurd h nofun
  · rw [lines_of_not_mem hmem hne] at h
    cases i with
    | zero =>
      rw [← Option.some.inj h]
      exact .last [] (.inl rfl) hmem hne
    | succ i => exact absurd h nofun

theorem HasLine.of_getElem?_lines {i : Nat} (h : (lines cs)[i]? = some line) :
    HasLine cs (i + 1) line := by
  -- A line behind the first one is a line of the rest, with one newline less in front of it.
  induction i generalizing cs with
  | zero =>
    by_cases hmem : '\n' ∈ cs
    · obtain ⟨first, rest, rfl, hfirst⟩ := List.eq_append_cons_of_mem hmem
      rw [lines_first hfirst, List.getElem?_cons_zero] at h
      rw [← Option.some.inj h]
      exact .first hfirst rest
    · exact .only hmem h
  | succ i ih =>
    by_cases hmem : '\n' ∈ cs
    · obtain ⟨first, rest, rfl, hfirst⟩ := List.eq_append_cons_of_mem hmem
      rw [lines_first hfirst, List.getElem?_cons_succ] at h
      have hbehind := (ih h).behind (whole_append_newline first)
      rw [List.append_assoc, List.singleton_append, List.count_append,
        List.count_eq_zero.mpr hfirst, List.count_singleton_self] at hbehind
      rwa [Nat.add_comm (i + 1)]
    · exact .only hmem h

theorem hasLine_iff : HasLine cs n line ↔ ∃ i, (lines cs)[i]? = some line ∧ n = i + 1 := by
  constructor
  · exact HasLine.getElem?_lines
  · intro h
    obtain ⟨i, hi, rfl⟩ := h
    exact .of_getElem?_lines hi

end PercentFormat.Text
