import PercentFormat.Proofs.Template.Grammar
import PercentFormat.Proofs.Text.Decimal

/-!
# Reading what is spelled

Each part of a directive is read back from its spelling, whatever follows it, as long as that does
not go on with the part.
-/

namespace PercentFormat

/-! ## Flags -/

namespace Grammar

/-- A text at whose head no flag stands. -/
def Unmarked (cs : List Char) : Prop := ∀ c ∈ cs.head?, c ∉ ['+', '-', '#', ' ', '0']

instance (cs : List Char) : Decidable (Unmarked cs) := Option.decidableForallMem cs.head?

theorem Unmarked.readAll {cs : List Char} (h : Unmarked cs) (f : Flags) :
    f.readAll cs = (f, cs) := by
  cases cs with
  | nil => rfl
  | cons c cs =>
    have hc := h c (by simp)
    simp only [List.mem_cons, List.not_mem_nil, or_false, not_or] at hc
    simp [Flags.readAll, Flags.read?, hc]

/-- The flags read so far are those of the marks read so far. -/
theorem flagsOf_read? (marks : List Mark) (m : Mark) :
    (flagsOf marks).read? m.char = some (flagsOf (marks ++ [m])) := by
  cases m with
  | zero =>
    by_cases h : Mark.minus ∈ marks <;> simp [Flags.read?, Mark.char, flagsOf, h]
  | plus => simp [Flags.read?, Mark.char, flagsOf]
  | minus => simp [Flags.read?, Mark.char, flagsOf]
  | sharp => simp [Flags.read?, Mark.char, flagsOf]
  | space => simp [Flags.read?, Mark.char, flagsOf]

theorem flagsOf_readAll (seen marks : List Mark) {cs : List Char} (h : Unmarked cs) :
    (flagsOf seen).readAll (marks.map Mark.char ++ cs) = (flagsOf (seen ++ marks), cs) := by
  induction marks generalizing seen with
  | nil => simpa using h.readAll (flagsOf seen)
  | cons m marks ih =>
    simp only [List.map_cons, List.cons_append, Flags.readAll, flagsOf_read?]
    rw [ih (seen ++ [m])]
    simp

theorem readAll_marks (marks : List Mark) {cs : List Char} (h : Unmarked cs) :
    Flags.empty.readAll (marks.map Mark.char ++ cs) = (flagsOf marks, cs) :=
  flagsOf_readAll [] marks h

theorem Flags.set_upper {flags : Flags} (hf : flags.upper = false) (up : Bool) :
    (if up then { flags with upper := true } else flags) = { flags with upper := up } := by
  cases up with
  | false => simp [← hf]
  | true => rfl

/-! ## Numbers -/

/-- A text at whose head no digit stands. -/
def Undigited (cs : List Char) : Prop := ∀ c ∈ cs.head?, c.isDigit = false

instance (cs : List Char) : Decidable (Undigited cs) := Option.decidableForallMem cs.head?

theorem runFrom_digits (n : Nat) {ds cs : List Char} (hd : ∀ c ∈ ds, c.isDigit = true)
    (hv : Decimal.valueFrom n ds ≤ maxNumber) (h : Undigited cs) :
    Numeral.runFrom n (ds ++ cs) = some (Decimal.valueFrom n ds, cs) := by
  induction ds generalizing n with
  | nil =>
    cases cs with
    | nil => rfl
    | cons c cs => simp [Numeral.runFrom, h c (by simp), Decimal.valueFrom]
  | cons d ds ih =>
    have hle := Decimal.le_valueFrom (10 * n + Numeral.digitValue d) ds
    have hv' : Decimal.valueFrom (10 * n + Numeral.digitValue d) ds ≤ maxNumber := hv
    simp only [List.cons_append, Numeral.runFrom, hd d (by simp), if_true]
    rw [if_neg (by omega), ih _ (fun c hc => hd c (List.mem_cons_of_mem _ hc)) hv']
    rfl

theorem Digits.chars_ne_nil (n : Digits) : n.chars ≠ [] :=
  (Decimal.value?_eq_some_iff.mp n.spelled).1

theorem Digits.isDigit (n : Digits) : ∀ c ∈ n.chars, c.isDigit = true :=
  (Decimal.value?_eq_some_iff.mp n.spelled).2.1

theorem Digits.head?_ne (n : Digits) {c : Char} (hc : c.isDigit = false) (cs : List Char) :
    (n.chars ++ cs).head? ≠ some c :=
  Decimal.head?_numeral n.spelled hc cs

theorem Digits.valueFrom (n : Digits) : Decimal.valueFrom 0 n.chars = n.value :=
  (Decimal.value?_eq_some_iff.mp n.spelled).2.2

theorem Digits.read (n : Digits) {cs : List Char} (h : Undigited cs) :
    Numeral.read (n.chars ++ cs) = (some n.value, cs) := by
  have hr := runFrom_digits 0 n.isDigit (by rw [n.valueFrom]; exact n.value_le) h
  rw [n.valueFrom] at hr
  obtain ⟨d, ds, hds⟩ := List.exists_cons_of_ne_nil n.chars_ne_nil
  have hd := n.isDigit d (by simp [hds])
  simp only [hds, List.cons_append] at hr ⊢
  simp [Numeral.read, hd, hr]

theorem Digits.value? (n : Digits) : Numeral.value? n.chars = some n.value := by
  have hu : Undigited [] := by simp [Undigited]
  have hr := n.read hu
  rw [List.append_nil] at hr
  simp [Numeral.value?, hr]

theorem Undigited.read {cs : List Char} (h : Undigited cs) : Numeral.read cs = (none, cs) := by
  cases cs with
  | nil => rfl
  | cons c cs => simp [Numeral.read, h c (by simp)]

/-! ## Argument indexes -/

theorem Index.bracket (m : Index) (cs : List Char) :
    Bracket.read (m.print ++ cs) = .index (m.value - 1) cs := by
  have hn : ∀ c ∈ m.chars, decide (c ≠ ']') = true := by
    intro c hc
    have hd := m.isDigit c hc
    simp only [decide_eq_true_eq]
    rintro rfl
    exact absurd hd (by decide)
  have hs : m.chars ++ ']' :: cs ≠ [']'] := by
    obtain ⟨d, ds, hds⟩ := List.exists_cons_of_ne_nil m.chars_ne_nil
    simp [hds]
  have hv := m.toDigits.value?
  obtain ⟨v, hv'⟩ := Nat.exists_eq_add_of_le' m.pos
  rw [hv'] at hv
  simp only [Index.print, List.cons_append, List.append_assoc, List.nil_append, Bracket.read,
    if_neg hs]
  rw [List.dropWhile_append_of_pos hn, List.takeWhile_append_of_pos hn]
  simp [hv, hv']

/-- A text at whose head no bracket opens. -/
def Unbracketed (cs : List Char) : Prop := cs.head? ≠ some '['

theorem Unbracketed.bracket {cs : List Char} (h : Unbracketed cs) : Bracket.read cs = .absent := by
  unfold Bracket.read
  split
  · simp [Unbracketed] at h
  · rfl

end Grammar

/-! ## Parts of a directive -/

namespace Cursor

/-- The cursor behind an argument that was taken. -/
def past (c : Cursor) (i : Nat) : Cursor := ⟨i + 1, max c.named (i + 1)⟩

end Cursor

namespace Reading

open Grammar

theorem readIndex_none (cursor : Cursor) {cs : List Char} (h : Unbracketed cs) :
    (start cursor cs).readIndex = start cursor cs := by
  simp [readIndex, start, h.bracket]

theorem readIndex_some (cursor : Cursor) (m : Index) (cs : List Char) :
    (start cursor (m.print ++ cs)).readIndex =
      ⟨{ cursor with next := m.value - 1 }, true, true, cs⟩ := by
  simp [readIndex, start, m.bracket]

/-- A star takes the argument of the index before it, or the one that comes next. -/
theorem takeStar_index (cursor : Cursor) (m : Option Index) (cs : List Char) :
    (start cursor (printIndex m ++ '*' :: cs)).readIndex.countIndex.rest = '*' :: cs ∧
      (start cursor (printIndex m ++ '*' :: cs)).readIndex.countIndex.takeStar cs =
        (some (.indirect (pick cursor.next m)), start (cursor.past (pick cursor.next m)) cs) := by
  cases m with
  | none =>
    rw [printIndex, List.nil_append, readIndex_none cursor (by simp [Unbracketed])]
    exact ⟨rfl, rfl⟩
  | some m =>
    rw [printIndex, readIndex_some]
    refine ⟨rfl, ?_⟩
    simp [countIndex, takeStar, start, pick, Cursor.take, Cursor.touch, Cursor.past]

theorem readWidth_star (cursor : Cursor) (m : Option Index) (cs : List Char) :
    (start cursor ((Width.star m).print ++ cs)).readIndex.countIndex.readWidth =
      (some (.indirect (pick cursor.next m)), start (cursor.past (pick cursor.next m)) cs) := by
  obtain ⟨hr, ht⟩ := takeStar_index cursor m cs
  simp only [Width.print, List.append_assoc, List.cons_append, List.nil_append]
  rw [readWidth]
  split
  · next rest h =>
    rw [hr, List.cons.injEq] at h
    rw [← h.2, ht]
  · next h => exact absurd hr (h cs)

theorem readWidth_none {r : Reading} (hd : Undigited r.rest) (hs : r.rest.head? ≠ some '*') :
    r.readWidth = (none, r) := by
  rw [readWidth]
  split
  · next h => simp [h] at hs
  · simp [hd.read]

theorem readWidth_fixed (cursor : Cursor) (n : Digits) {cs : List Char} (h : Undigited cs) :
    (start cursor (n.chars ++ cs)).readIndex.countIndex.readWidth =
      (some (.fixed n.value), start cursor cs) := by
  rw [readIndex_none cursor (n.head?_ne (by decide) cs)]
  have hr := n.read h
  have hstar := n.head?_ne (show '*'.isDigit = false by decide) cs
  simp only [countIndex, start, Bool.false_eq_true, if_false, readWidth]
  split
  · next rest hs => simp [hs] at hstar
  · simp [hr]

theorem readPrecision_star (cursor : Cursor) (m : Option Index) (cs : List Char) :
    (start cursor ((Precision.star m).print ++ cs)).readPrecision =
      (some (.indirect (pick cursor.next m)), start (cursor.past (pick cursor.next m)) cs) := by
  obtain ⟨hr, ht⟩ := takeStar_index cursor m cs
  simp only [Precision.print, List.append_assoc, List.cons_append, List.nil_append]
  rw [readPrecision]
  simp only [start, Bool.not_false, Bool.and_self]
  split
  · next rest h =>
    simp only [start] at hr
    rw [hr, List.cons.injEq] at h
    rw [← h.2]
    exact ht
  · next h => exact absurd hr (h cs)

theorem readPrecision_fixed (cursor : Cursor) (n : Digits) {cs : List Char} (h : Undigited cs) :
    (start cursor ('.' :: n.chars ++ cs)).readPrecision =
      (some (.fixed n.value), start cursor cs) := by
  have hi := readIndex_none cursor (n.head?_ne (by decide) cs)
  have hr := n.read h
  have hstar := n.head?_ne (show '*'.isDigit = false by decide) cs
  simp only [start] at hi
  simp only [List.cons_append, readPrecision, start, Bool.not_false, Bool.and_self, hi, countIndex,
    Bool.false_eq_true, if_false]
  split
  · next rest hs => simp [hs] at hstar
  · simp [hr]

theorem readPrecision_none {r : Reading} (h : r.rest.head? ≠ some '.') :
    r.readPrecision = (none, r) := by
  rw [readPrecision]
  split
  · next hr => simp [hr] at h
  · rfl

/-- A point alone leaves the index behind it to the verb, which has been read early then. -/
theorem readPrecision_point (cursor : Cursor) {cs : List Char}
    (hd : Undigited (start cursor cs).readIndex.countIndex.rest)
    (hs : (start cursor cs).readIndex.countIndex.rest.head? ≠ some '*') :
    (start cursor ('.' :: cs)).readPrecision =
      (some (.fixed 0), (start cursor cs).readIndex.countIndex) := by
  simp only [start] at hd hs
  simp only [readPrecision, start, Bool.not_false, Bool.and_self]
  split
  · next hr => simp [hr] at hs
  · simp [hd.read]

/-- An index in front of the verb may be read early and counted at once. -/
theorem readVerb_early (cursor : Cursor) {cs : List Char}
    (hne : (start cursor cs).readIndex.rest ≠ []) (flags : Flags) (w p : Option Measure) :
    (start cursor cs).readIndex.countIndex.readLastIndex.readVerb flags w p =
      (start cursor cs).readLastIndex.readVerb flags w p := by
  have hlast : (start cursor cs).readLastIndex = (start cursor cs).readIndex := rfl
  rw [hlast]
  by_cases hi : (start cursor cs).readIndex.indexed = true
  · obtain ⟨c, rest, hc⟩ := List.exists_cons_of_ne_nil hne
    simp [readVerb, readLastIndex, countIndex, hi, hc, Cursor.touch]
  · have hstart : (start cursor cs).readIndex = start cursor cs := by
      unfold readIndex at hi ⊢
      split at hi
      · rfl
      · simp at hi
      · simp at hi
    have hcount : (start cursor cs).countIndex = start cursor cs := rfl
    rw [hstart, hcount, hlast, hstart]

end Reading

end PercentFormat
