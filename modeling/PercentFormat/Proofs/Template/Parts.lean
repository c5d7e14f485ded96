import Mathlib.Data.List.TakeWhile
import PercentFormat.Proofs.Template.Compilation
import PercentFormat.Proofs.Template.Shortcuts
import PercentFormat.Proofs.Template.Spelling

/-!
# Parts in any spelling

Each part of a directive is read off from whatever text it fits, and what is wrong with it is
noted. So a complete directive is read as it is meant, right or wrong.
-/

namespace PercentFormat

/-! ## Numbers -/

namespace Numeral

theorem runFrom_eq_end_iff {n m : Nat} (hn : n ≤ maxNumber) {cs : List Char} :
    runFrom n cs = some (m, []) ↔
      (∀ c ∈ cs, c.isDigit = true) ∧ Decimal.valueFrom n cs = m ∧ m ≤ maxNumber := by
  constructor
  · intro h
    have hm := runFrom_le hn h
    induction cs generalizing n with
    | nil =>
      simp only [runFrom, Option.some.injEq, Prod.mk.injEq, and_true] at h
      exact ⟨by simp, h, hm⟩
    | cons c cs ih =>
      simp only [runFrom] at h
      split_ifs at h with hd hlarge
      · obtain ⟨hall, hv, -⟩ := ih (Nat.le_of_not_lt hlarge) h
        exact ⟨List.forall_mem_cons.mpr ⟨hd, hall⟩, hv, hm⟩
      · simp at h
  · rintro ⟨hall, hv, hm⟩
    have hend : Grammar.Undigited [] := by simp [Grammar.Undigited]
    have hr := Grammar.runFrom_digits n hall (hv ▸ hm) hend
    rwa [List.append_nil, hv] at hr

theorem value?_eq_some_iff {cs : List Char} {n : Nat} :
    value? cs = some n ↔ Decimal.value? cs = some n ∧ n ≤ maxNumber := by
  cases cs with
  | nil => simp [value?, read, Decimal.value?]
  | cons c cs =>
    have hread : value? (c :: cs) = some n ↔
        c.isDigit = true ∧ runFrom 0 (c :: cs) = some (n, []) := by
      simp only [value?, read]
      by_cases hd : c.isDigit = true
      · rw [if_pos hd]
        rcases runFrom 0 (c :: cs) with _ | ⟨m, rest⟩
        · simp
        · cases rest <;> simp [hd]
      · simp [hd]
    rw [hread, runFrom_eq_end_iff (Nat.zero_le _)]
    simp only [Decimal.value?, Option.ite_none_right_eq_some, Option.some.injEq, List.all_eq_true,
      ne_eq, reduceCtorEq, not_false_eq_true, true_and, List.forall_mem_cons]
    tauto

end Numeral

namespace Spelling

open Grammar

/-! ## Brackets -/

theorem Slot.index?_eq_some_iff {content : List Char} {free : ']' ∉ content} {n : Nat} :
    (Slot.closed content free).index? = some n ↔ Numeral.value? content = some (n + 1) := by
  rw [Numeral.value?_eq_some_iff, Slot.index?]
  split
  · next m hm =>
    rw [hm, Option.some.injEq]
    split_ifs with hlt
    · rw [Option.some.injEq]
      omega
    · simp only [false_iff]
      omega
  · next hnone =>
    simp only [reduceCtorEq, false_iff]
    exact fun h => hnone n h.1

/-- A bracket that closes is skipped whatever it holds. -/
theorem Slot.bracket_closed {content : List Char} (free : ']' ∉ content) {rest : List Char}
    (hne : rest ≠ []) :
    Bracket.read ('[' :: content ++ ']' :: rest) =
      (Slot.closed content free).index?.elim (.unusable rest) (.index · rest) := by
  have hn : ∀ c ∈ content, decide (c ≠ ']') = true := by
    intro c hc
    simp only [decide_eq_true_eq]
    rintro rfl
    exact free hc
  have hend : content ++ ']' :: rest ≠ [']'] := by
    cases content <;> simp [hne]
  simp only [List.cons_append, Bracket.read, if_neg hend]
  rw [List.dropWhile_append_of_pos hn, List.takeWhile_append_of_pos hn]
  simp only [ne_eq, decide_not, List.dropWhile_cons, List.takeWhile_cons, decide_true,
    Bool.not_true, Bool.false_eq_true, if_false, List.append_nil]
  split
  · next n hv =>
    rw [Slot.index?_eq_some_iff.mpr hv]
    rfl
  · next hv =>
    cases hi : (Slot.closed content free).index? with
    | none => rfl
    | some n => exact absurd (Slot.index?_eq_some_iff.mp hi) (hv n)

theorem Slot.bracket_unclosed {rest : List Char} (h : ']' ∉ rest ∨ rest = [']']) :
    Bracket.read ('[' :: rest) = .unusable rest := by
  rcases h with h | rfl
  · have hd : rest.dropWhile (· ≠ ']') = [] := by
      rw [List.dropWhile_eq_nil_iff]
      intro c hc
      simp only [decide_eq_true_eq]
      rintro rfl
      exact h hc
    have hend : rest ≠ [']'] := by
      rintro rfl
      simp at h
    simp only [Bracket.read, if_neg hend, hd]
  · rfl

end Spelling

/-! ## Parts of a directive -/

namespace Reading

open Grammar Spelling

/-- How far a reading is, but for the arguments named so far. -/
structure At (r : Reading) (next : Nat) (indexed proper : Bool) (rest : List Char) : Prop where
  next : r.cursor.next = next
  indexed : r.indexed = indexed
  proper : r.proper = proper
  rest : r.rest = rest

namespace At

variable {r : Reading} {next : Nat} {i p : Bool} {rest : List Char}

theorem countIndex (h : r.At next i p rest) : r.countIndex.At next i p rest := by
  unfold Reading.countIndex
  split
  · exact ⟨h.next, h.indexed, h.proper, h.rest⟩
  · exact h

theorem readIndex {s : Slot} (h : r.At next i p (s.print ++ rest)) (hs : s.Fits rest)
    (hne : rest ≠ []) : r.readIndex.At (s.pick next) s.isPresent (p && s.isUsable) rest := by
  unfold Reading.readIndex
  rw [h.rest]
  cases s with
  | absent =>
    rw [Slot.print, List.nil_append, Unbracketed.bracket hs]
    exact ⟨h.next, rfl, by simp [h.proper, Slot.isUsable, Slot.isPresent], rfl⟩
  | unclosed =>
    rw [Slot.print, List.singleton_append, Slot.bracket_unclosed hs]
    exact ⟨h.next, rfl, by simp [Slot.isUsable, Slot.isPresent, Slot.index?], rfl⟩
  | closed content free =>
    have hb := Slot.bracket_closed free hne
    rw [Slot.print, List.append_assoc, List.singleton_append, hb]
    cases hi : (Slot.closed content free).index? with
    | none =>
      refine ⟨?_, rfl, ?_, rfl⟩
      · simp [Slot.pick, hi, h.next]
      · simp [Slot.isUsable, hi, Slot.isPresent]
    | some n =>
      refine ⟨?_, rfl, ?_, rfl⟩
      · simp [Slot.pick, hi]
      · simp [Slot.isUsable, hi, h.proper]

theorem takeStar (h : r.At next i p ('*' :: rest)) :
    (r.takeStar rest).1 = some (.indirect next) ∧
      (r.takeStar rest).2.At (next + 1) false p rest := by
  refine ⟨?_, ?_, rfl, h.proper, rfl⟩
  · rw [Reading.takeStar, h.next]
  · exact congrArg (· + 1) h.next

theorem readWidth {a : Amount} (h : r.At next i p (a.print ++ rest)) (ha : a.Fits rest) :
    r.readWidth.1 = a.measure next ∧
      r.readWidth.2.At (a.past next) (i && !a.isStar) (p && !(i && a.isNumber)) rest := by
  cases a with
  | star =>
    have hr : r.rest = '*' :: rest := h.rest
    have hw : r.readWidth = r.takeStar rest := by simp only [Reading.readWidth, hr]
    rw [hw]
    simpa [Amount.measure, Amount.past, Amount.isStar, Amount.isNumber] using takeStar h
  | absent =>
    have hr : r.rest = rest := h.rest
    rw [readWidth_none (hr ▸ ha.1) (hr ▸ ha.2)]
    refine ⟨rfl, h.next, ?_, ?_, hr⟩
    · simp [h.indexed, Amount.isStar]
    · simp [h.proper, Amount.isNumber]
  | number n =>
    have hstar := n.head?_ne (show '*'.isDigit = false by decide) rest
    have hr : r.rest = n.chars ++ rest := h.rest
    have hw : r.readWidth =
        (some (.fixed n.value), { r with proper := r.proper && !r.indexed, rest := rest }) := by
      rw [Reading.readWidth, hr]
      split
      · next tail hs => simp [hs] at hstar
      · simp [n.read ha]
    rw [hw]
    refine ⟨rfl, h.next, ?_, ?_, rfl⟩
    · simp [h.indexed, Amount.isStar]
    · simp [h.indexed, h.proper, Amount.isNumber]

theorem readPrecision {q : Point} (h : r.At next i p (q.print ++ rest))
    (hi : q.index.Fits (q.amount.print ++ rest)) (ha : q.amount.Fits rest) (hne : rest ≠ []) :
    r.readPrecision.1 = some (q.measure next) ∧
      r.readPrecision.2.At (q.past next) (q.index.isPresent && !q.amount.isStar)
        (p && !i && q.index.isUsable) rest := by
  have hr : r.rest = '.' :: (q.index.print ++ (q.amount.print ++ rest)) := by
    simpa [Point.print] using h.rest
  have hpoint : Reading.At ⟨r.cursor, r.indexed, r.proper && !r.indexed,
      q.index.print ++ (q.amount.print ++ rest)⟩ next i (p && !i)
      (q.index.print ++ (q.amount.print ++ rest)) :=
    ⟨h.next, h.indexed, by simp [h.proper, h.indexed], rfl⟩
  have hindex := (hpoint.readIndex hi (by simp [hne])).countIndex
  simp only [Reading.readPrecision, hr]
  generalize (Reading.mk r.cursor r.indexed (r.proper && !r.indexed)
    (q.index.print ++ (q.amount.print ++ rest))).readIndex.countIndex = t at hindex ⊢
  rw [Point.measure, Point.past]
  generalize q.amount = a at ha hindex ⊢
  cases a with
  | star =>
    have ht : t.rest = '*' :: rest := hindex.rest
    simp only [ht]
    simpa [Amount.measure, Amount.past, Amount.isStar] using takeStar hindex
  | absent =>
    have ht : t.rest = rest := hindex.rest
    split
    · next tail hs => simp [← ht, hs, Amount.Fits] at ha
    · rw [ht, Undigited.read ha.1]
      refine ⟨rfl, hindex.next, ?_, hindex.proper, rfl⟩
      simp [hindex.indexed, Amount.isStar]
  | number n =>
    have hstar := n.head?_ne (show '*'.isDigit = false by decide) rest
    have ht : t.rest = n.chars ++ rest := hindex.rest
    split
    · next tail hs => simp [← ht, hs] at hstar
    · rw [ht, n.read ha]
      refine ⟨rfl, hindex.next, ?_, hindex.proper, rfl⟩
      simp [hindex.indexed, Amount.isStar]

theorem readLastIndex {s : Slot} (h : r.At next i p (s.print ++ rest))
    (hs : if i then s.isPresent = false else s.Fits rest) (hne : rest ≠ []) :
    r.readLastIndex.At (s.pick next) (i || s.isPresent) (p && s.isUsable) rest := by
  rw [Reading.readLastIndex, h.indexed]
  cases i with
  | false =>
    have hindex := h.readIndex (by simpa using hs) hne
    simpa using hindex
  | true =>
    cases s with
    | absent => simpa [Slot.print, Slot.pick, Slot.index?, Slot.isUsable, Slot.isPresent] using h
    | _ => simp [Slot.isPresent] at hs

theorem readVerb {c : Char} (h : r.At next i p (c :: rest)) (hc : c ≠ '%') (flags : Flags)
    (hf : flags.upper = false) (w q : Option Measure) :
    (r.readVerb flags w q).piece =
        (if p then .directive c
          ⟨.ofChar c, { flags with upper := Unicode.isUppercase c }, w, q, next⟩
        else .literal (badIndex c)) ∧
      (r.readVerb flags w q).cursor.next = (if p then next + 1 else next) ∧
      (r.readVerb flags w q).rest = rest := by
  have hcount := h.countIndex.next
  have hup := Flags.set_upper hf (Unicode.isUppercase c)
  simp only [Reading.readVerb, h.rest, if_neg hc, h.proper, hup]
  cases p with
  | true => exact ⟨by simp [hcount], by simp [Cursor.take, hcount], rfl⟩
  | false => exact ⟨rfl, by simp [hcount], rfl⟩

end At

end Reading

/-! ## Whole directives -/

namespace Reading

open Grammar

/-- What a width and a precision do to a reading at the index before them. -/
theorem At.readMeasures {f : Spelling.Form} {cs : List Char} (h : f.Fits cs) {r : Reading}
    {next : Nat} (hr : r.At next false true (f.behindMarks cs)) :
    let width := r.readIndex.countIndex.readWidth
    width.1 = f.width.measure (f.index.pick next) ∧
      width.2.readPrecision.1 = f.precision.map (Spelling.Point.measure (f.pastWidth next)) ∧
      width.2.readPrecision.2.At
        (f.precision.elim (f.pastWidth next) (Spelling.Point.past (f.pastWidth next)))
        f.isIndexed
        (f.index.isUsable && f.precision.all (·.index.isUsable) &&
          !(f.index.isPresent && (f.width.isNumber || !f.width.isStar && f.precision.isSome)))
        (f.behindPrecision cs) := by
  have hend : f.behindPrecision cs ≠ [] := by simp [Spelling.Form.behindPrecision]
  have hindex := (hr.readIndex h.index
    (by simp [Spelling.Form.behindIndex, Spelling.Form.behindWidth, hend])).countIndex
  obtain ⟨hw, hwidth⟩ := hindex.readWidth h.width
  refine ⟨hw, ?_⟩
  generalize r.readIndex.countIndex.readWidth = width at hwidth ⊢
  have hpoint := h.point
  have hprecision := h.precision
  unfold Spelling.Form.isIndexed
  cases hp : f.precision with
  | none =>
    have hrest : width.2.rest = f.behindPrecision cs := by
      rw [hwidth.rest, Spelling.Form.behindWidth, hp]
      rfl
    rw [readPrecision_none (hrest ▸ hpoint (by simp [hp]))]
    refine ⟨rfl, hwidth.next, hwidth.indexed, ?_, hrest⟩
    rw [hwidth.proper]
    simp
  | some q =>
    obtain ⟨hqi, hqa⟩ := hprecision q hp
    have hbehind : f.behindWidth cs = q.print ++ f.behindPrecision cs := by
      rw [Spelling.Form.behindWidth, hp]
      rfl
    rw [hbehind] at hwidth
    obtain ⟨hq, hat⟩ := hwidth.readPrecision hqi hqa hend
    refine ⟨hq, hat.next, hat.indexed, ?_, hat.rest⟩
    rw [hat.proper]
    cases f.index.isUsable <;> cases f.index.isPresent <;> cases f.width.isNumber <;>
      cases f.width.isStar <;> simp

end Reading

namespace Read

open Grammar

theorem general_spelled {f : Spelling.Form} {cs : List Char} (h : f.Fits cs) (cursor : Cursor) :
    (general (flagsOf f.marks) cursor (f.behindMarks cs)).piece = f.piece cursor.next ∧
      (general (flagsOf f.marks) cursor (f.behindMarks cs)).cursor.next = f.behind cursor.next ∧
      (general (flagsOf f.marks) cursor (f.behindMarks cs)).rest = cs := by
  have hstart : (Reading.start cursor (f.behindMarks cs)).At cursor.next false true
      (f.behindMarks cs) := ⟨rfl, rfl, rfl, rfl⟩
  obtain ⟨hw, hp, hat⟩ := hstart.readMeasures h
  have hlast := hat.readLastIndex h.last (by simp)
  rw [general, hw, hp]
  exact hlast.readVerb h.letter (flagsOf f.marks) rfl _ _

/-- A complete directive is read as it is meant. -/
theorem directive_spelled {f : Spelling.Form} {cs : List Char} (h : f.Fits cs) (cursor : Cursor) :
    (directive cursor (f.print ++ cs)).piece = f.piece cursor.next ∧
      (directive cursor (f.print ++ cs)).cursor.next = f.behind cursor.next ∧
      (directive cursor (f.print ++ cs)).rest = cs := by
  have hprint : f.print ++ cs = f.marks.map Mark.char ++ f.behindMarks cs := by
    simp [Spelling.Form.print, Spelling.Form.behindMarks, Spelling.Form.behindIndex,
      Spelling.Form.behindWidth, Spelling.Form.behindPrecision]
  have hread := readAll_marks f.marks h.marks
  rw [directive_eq_inFull, inFull, hprint, hread]
  exact general_spelled h cursor

end Read

/-! ## Formats -/

/-- The items of a complete format are scanned one by one. -/
theorem Spelling.merge_pieces {items : List Item} (h : Complete items) (cursor : Cursor) :
    Piece.merge (DirectiveReader.standard.pieces cursor (print items)).1 =
      Piece.merge (pieces cursor.next items) := by
  induction items generalizing cursor with
  | nil => simp [print, pieces, DirectiveReader.pieces_nil]
  | cons item items ih =>
    have hprint : print (item :: items) = item.print ++ print items := rfl
    rw [hprint]
    cases item with
    | literal text free =>
      obtain ⟨-, hm⟩ := DirectiveReader.standard.merge_pieces_literal cursor free (print items)
      rw [Item.print, hm, ih h]
      rfl
    | escape marks =>
      have hread := Read.directive_escape marks cursor (print items)
      simp only [Item.print, List.cons_append, List.append_assoc, List.nil_append]
      rw [DirectiveReader.pieces_percent]
      simp only [DirectiveReader.standard, hread]
      exact congrArg (Piece.cons (.literal "%")) (ih h cursor)
    | directive f =>
      obtain ⟨hpiece, hnext, hrest⟩ := Read.directive_spelled h.1 cursor
      have ih' := ih h.2 (Read.directive cursor (f.print ++ print items)).cursor
      rw [hnext] at ih'
      simp only [Item.print, List.cons_append]
      rw [DirectiveReader.pieces_percent]
      simp only [DirectiveReader.standard, hpiece, hrest] at ih' ⊢
      exact congrArg (Piece.cons (f.piece cursor.next)) ih'

end PercentFormat
