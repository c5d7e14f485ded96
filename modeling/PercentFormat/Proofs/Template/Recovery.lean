import PercentFormat.Proofs.Template.Parts
import PercentFormat.Proofs.Template.Resuming
import PercentFormat.Proofs.Template.Unfinished

/-!
# Behind an unusable index

A bracket that points at no argument spoils its directive and no other one. A literal says so, and
the format goes on behind the verb with the argument that came next before the directive.
-/

namespace PercentFormat

/-! ## Numbers in brackets -/

namespace Numeral

/-- Reads a numeral as `value?` does, and lists the numbers that it goes through. -/
def valueThrough (cs : List Char) : List Nat × Option Nat :=
  match cs with
  | [] => ([], none)
  | c :: _ =>
    if c.isDigit then
      let r := runThrough 0 cs
      match r.2 with
      | some (n, []) => (r.1, some n)
      | _ => (r.1, none)
    else ([], none)

theorem valueThrough_snd (cs : List Char) : (valueThrough cs).2 = value? cs := by
  cases cs with
  | nil => rfl
  | cons c cs =>
    simp only [valueThrough, value?, read, runThrough_snd]
    split
    · rcases runFrom 0 (c :: cs) with _ | ⟨n, _ | ⟨d, rest⟩⟩ <;> rfl
    · rfl

theorem le_of_mem_valueThrough {cs : List Char} {m : Nat} (h : m ∈ (valueThrough cs).1) :
    m ≤ 10 * maxNumber + 9 := by
  have hrun (h : m ∈ (runThrough 0 cs).1) : m ≤ 10 * maxNumber + 9 :=
    le_of_mem_runThrough (Nat.zero_le _) h
  cases cs with
  | nil => simp [valueThrough] at h
  | cons c cs =>
    simp only [valueThrough] at h
    split at h
    · split at h
      · exact hrun h
      · exact hrun h
    · simp at h

end Numeral

namespace Bracket

/-- Reads an argument index as `read` does, and lists the numbers that it goes through. -/
def readThrough : List Char → List Nat × Bracket
  | '[' :: cs =>
    if cs = [']'] then ([], .unusable cs)
    else
      match cs.dropWhile (· ≠ ']') with
      | [] => ([], .unusable cs)
      | _ :: rest =>
        let r := Numeral.valueThrough (cs.takeWhile (· ≠ ']'))
        match r.2 with
        | some (n + 1) => (r.1, .index n rest)
        | _ => (r.1, .unusable rest)
  | _ => ([], .absent)

theorem readThrough_snd (cs : List Char) : (readThrough cs).2 = read cs := by
  unfold read
  split
  · next cs =>
    rw [readThrough]
    by_cases hsingle : cs = [']']
    · rw [if_pos hsingle, if_pos hsingle]
    · rw [if_neg hsingle, if_neg hsingle]
      rcases cs.dropWhile (· ≠ ']') with _ | ⟨d, rest⟩
      · rfl
      · simp only [Numeral.valueThrough_snd]
        rcases Numeral.value? (cs.takeWhile (· ≠ ']')) with _ | _ | n <;> rfl
  · next hopen =>
    unfold readThrough
    split
    · next cs => exact absurd rfl (hopen cs)
    · rfl

theorem le_of_mem_readThrough {cs : List Char} {m : Nat} (h : m ∈ (readThrough cs).1) :
    m ≤ 10 * maxNumber + 9 := by
  unfold readThrough at h
  split at h
  · split at h
    · simp at h
    · split at h
      · simp at h
      · dsimp only at h
        split at h
        · exact Numeral.le_of_mem_valueThrough h
        · exact Numeral.le_of_mem_valueThrough h
  · simp at h

end Bracket

open Grammar Spelling

/-! ## Directives -/

/-- A bracket that points at no argument is passed over, and the verb stands right behind it. -/
theorem Read.directive_unusable (marks : List Mark) {cs rest : List Char} {c : Char}
    (hread : Bracket.read ('[' :: cs) = .unusable (c :: rest)) (hparts : c ∉ ['*', '.', '%'])
    (hdigit : c.isDigit = false) (cursor : Cursor) :
    directive cursor (marks.map Mark.char ++ '[' :: cs) =
      ⟨.literal (badIndex c), cursor.touch, rest⟩ := by
  simp only [List.mem_cons, List.not_mem_nil, or_false, not_or] at hparts
  obtain ⟨hstar, hpoint, hpercent⟩ := hparts
  have hindex : (Reading.start cursor ('[' :: cs)).readIndex.countIndex =
      ⟨cursor.touch, true, false, c :: rest⟩ := by
    simp only [Reading.readIndex, Reading.start, hread, Reading.countIndex, if_true]
  have hwidth : (Reading.mk cursor.touch true false (c :: rest)).readWidth =
      (none, ⟨cursor.touch, true, false, c :: rest⟩) :=
    Reading.readWidth_none (by simpa [Undigited] using hdigit) (by simpa using hstar)
  have hprecision : (Reading.mk cursor.touch true false (c :: rest)).readPrecision =
      (none, ⟨cursor.touch, true, false, c :: rest⟩) :=
    Reading.readPrecision_none (by simpa using hpoint)
  have hcount : (Reading.mk cursor.touch true false (c :: rest)).countIndex.cursor =
      cursor.touch := by
    simp only [Reading.countIndex, if_true, Cursor.touch, Nat.max_assoc, Nat.max_self]
  have hlast : (Reading.mk cursor.touch true false (c :: rest)).readLastIndex =
      ⟨cursor.touch, true, false, c :: rest⟩ := rfl
  rw [directive_of_unmarked marks cursor (by simp [Unmarked]), general]
  simp only [hindex, hwidth, hprecision, hlast, Reading.readVerb, hcount, if_neg hpercent]
  rfl

namespace Template

theorem compileFrom_unusable (marks : List Mark) {cs rest : List Char} {c : Char}
    (hread : Bracket.read ('[' :: cs) = .unusable (c :: rest)) (hparts : c ∉ ['*', '.', '%'])
    (hdigit : c.isDigit = false) (next : Nat) :
    compileFrom next ('%' :: (marks.map Mark.char ++ '[' :: cs)) =
      ofLiteral (badIndex c) (next + 1) ++ compileFrom next rest := by
  have hbad : badIndex c ≠ "" := by
    intro h
    have htext := congrArg String.toList h
    simp [badIndex] at htext
  have hdirective : DirectiveReader.standard.read { next := next }
      (marks.map Mark.char ++ '[' :: cs) =
        ⟨.literal (badIndex c), Cursor.naming (next + 1) { next := next }, rest⟩ := by
    have h := Read.directive_unusable marks hread hparts hdigit { next := next }
    rw [Cursor.touch, Nat.max_comm] at h
    exact h
  simp only [compileFrom]
  rw [DirectiveReader.pieces_percent, hdirective, DirectiveReader.pieces_naming,
    ← ofPieces_literal hbad, ← ofPieces_append]
  rfl

/-- A directive with an unusable index becomes a literal, whether its bracket closes or not. What
follows it names the arguments that it would name without the directive. -/
theorem compile_bad_index (items : List Grammar.Item) (marks : List Mark) (c : Char)
    (hparts : c ∉ ['*', '.', '%']) (hdigit : c.isDigit = false) (q : List Char) :
    let next := (behindAll {} items).next
    let spoiled := compile (String.ofList (Grammar.print items)) ++
      (ofLiteral (badIndex c) (next + 1) ++ compileFrom next q)
    (∀ b, ']' ∉ b → (∀ n, Decimal.value? b = some n → n = 0 ∨ maxNumber < n) →
      compile (String.ofList (Grammar.print items ++
        '%' :: (marks.map Mark.char ++ '[' :: b ++ ']' :: c :: q))) = spoiled) ∧
    (']' ∉ c :: q →
      compile (String.ofList (Grammar.print items ++
        '%' :: (marks.map Mark.char ++ '[' :: c :: q))) = spoiled) ∧
    compile (String.ofList (Grammar.print items ++ q)) =
      compile (String.ofList (Grammar.print items)) ++ compileFrom next q ∧
    ∀ cs, (Bracket.readThrough cs).2 = Bracket.read cs ∧
      ∀ m ∈ (Bracket.readThrough cs).1, m ≤ 10 * maxNumber + 9 := by
  intro next spoiled
  refine ⟨?_, ?_, compile_items items q, ?_⟩
  · intro b hfree hvalue
    have hindex : (Slot.closed b hfree).index? = none := by
      rw [Option.eq_none_iff_forall_ne_some]
      intro n hn
      rw [Slot.index?_eq_some_iff, Numeral.value?_eq_some_iff] at hn
      have hrange := hvalue (n + 1) hn.1
      omega
    have hread : Bracket.read ('[' :: (b ++ ']' :: c :: q)) = .unusable (c :: q) := by
      have h := Slot.bracket_closed hfree (List.cons_ne_nil c q)
      rwa [hindex] at h
    rw [List.append_assoc, List.cons_append, compile_items,
      compileFrom_unusable marks hread hparts hdigit]
  · intro hfree
    have hread : Bracket.read ('[' :: c :: q) = .unusable (c :: q) :=
      Slot.bracket_unclosed (.inl hfree)
    rw [compile_items, compileFrom_unusable marks hread hparts hdigit]
  · exact fun cs => ⟨Bracket.readThrough_snd cs, fun m hm => Bracket.le_of_mem_readThrough hm⟩

theorem compile_bad_index_signed :
    compile "%d%-[-1]s%s" =
        compile "%d" ++ (ofLiteral "%!s(BADINDEX)" 2 ++ compileFrom 1 ['%', 's']) ∧
      compile "%d%[s%s" =
        compile "%d" ++ (ofLiteral "%!s(BADINDEX)" 2 ++ compileFrom 1 ['%', 's']) ∧
      compile "%d%s" = compile "%d" ++ compileFrom 1 ['%', 's'] := by
  let items : List Grammar.Item :=
    [.directive ⟨[], .absent, .absent, none, ⟨'d', by decide, rfl⟩⟩]
  have hvalue : ∀ n, Decimal.value? ['-', '1'] = some n → n = 0 ∨ maxNumber < n := by
    intro n hn
    exact absurd hn (by simp [Decimal.value?])
  have hclosed := compile_bad_index items [.minus] 's' (by decide) rfl ['%', 's']
  have hopen := compile_bad_index items [] 's' (by decide) rfl ['%', 's']
  exact ⟨hclosed.1 ['-', '1'] (by decide) hvalue, hopen.2.1 (by decide), hopen.2.2.1⟩

end Template

end PercentFormat
