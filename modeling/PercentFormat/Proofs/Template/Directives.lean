import PercentFormat.Proofs.Template.Scan
import PercentFormat.Proofs.Text.Decimal

/-!
# Directives of any format

However a directive is spelled, what is read from it has flags that agree with each other, numbers
that are small and arguments that are named.
-/

namespace PercentFormat

/-- A number is small, an argument is among those named. -/
def Measure.Within (named : Nat) : Measure → Prop
  | .fixed n => n ≤ maxNumber
  | .indirect i => i < named

theorem Measure.Within.mono {m n : Nat} (h : m ≤ n) {w : Measure} (hw : w.Within m) :
    w.Within n := by
  cases w with
  | fixed k => exact hw
  | indirect i => exact Nat.lt_of_lt_of_le hw h

structure Directive.WellFormed (letter : Char) (named : Nat) (d : Directive) : Prop where
  verb : d.verb = .ofChar letter
  upper : d.flags.upper = Unicode.isUppercase letter
  padding : ¬ (d.flags.minus = true ∧ d.flags.zero = true)
  width : ∀ w ∈ d.width, w.Within named
  precision : ∀ w ∈ d.precision, w.Within named
  arg : d.arg < named

theorem Directive.WellFormed.mono {letter : Char} {m n : Nat} (h : m ≤ n) {d : Directive}
    (hd : d.WellFormed letter m) : d.WellFormed letter n where
  verb := hd.verb
  upper := hd.upper
  padding := hd.padding
  width w hw := (hd.width w hw).mono h
  precision w hw := (hd.precision w hw).mono h
  arg := Nat.lt_of_lt_of_le hd.arg h

def Piece.WellFormed (named : Nat) : Piece → Prop
  | .literal _ => True
  | .directive c d => d.WellFormed c named

theorem Piece.WellFormed.mono {m n : Nat} (h : m ≤ n) {p : Piece} (hp : p.WellFormed m) :
    p.WellFormed n := by
  cases p with
  | literal s => trivial
  | directive c d => exact Directive.WellFormed.mono h hp

/-! ## Flags and numbers -/

/-- What flag characters can make of no flags. -/
structure Flags.Marked (f : Flags) : Prop where
  padding : ¬ (f.minus = true ∧ f.zero = true)
  upper : f.upper = false

theorem Flags.marked_empty : Flags.empty.Marked := ⟨by decide, rfl⟩

theorem Flags.Marked.read? {f g : Flags} {c : Char} (h : f.Marked) (hr : f.read? c = some g) :
    g.Marked := by
  have hpad := h.padding
  unfold Flags.read? at hr
  split_ifs at hr with h1 h2 h3 h4 h5 hm <;>
    simp only [Option.some.injEq] at hr <;> subst hr
  · exact ⟨hpad, h.upper⟩
  · exact ⟨hpad, h.upper⟩
  · exact ⟨hpad, h.upper⟩
  · exact ⟨by simp, h.upper⟩
  · exact h
  · exact ⟨fun hz => hm hz.1, h.upper⟩

theorem Flags.Marked.readAll {f : Flags} (h : f.Marked) (cs : List Char) :
    (f.readAll cs).1.Marked := by
  induction cs generalizing f with
  | nil => exact h
  | cons c cs ih =>
    rw [Flags.readAll]
    cases hr : f.read? c with
    | none => exact h
    | some g => exact ih (h.read? hr)

theorem Numeral.runFrom_le {n m : Nat} {cs rest : List Char} (hn : n ≤ maxNumber)
    (h : runFrom n cs = some (m, rest)) : m ≤ maxNumber := by
  induction cs generalizing n with
  | nil =>
    simp only [runFrom, Option.some.injEq, Prod.mk.injEq] at h
    exact h.1 ▸ hn
  | cons c cs ih =>
    simp only [runFrom] at h
    split_ifs at h with hd hlarge
    · exact ih (Nat.le_of_not_lt hlarge) h
    · simp only [Option.some.injEq, Prod.mk.injEq] at h
      exact h.1 ▸ hn

theorem Numeral.read_le {cs : List Char} {n : Nat} (h : (read cs).1 = some n) :
    n ≤ maxNumber := by
  cases cs with
  | nil => simp [read] at h
  | cons c cs =>
    simp only [read] at h
    split at h
    · cases hr : runFrom 0 (c :: cs) with
      | none => simp [hr] at h
      | some p =>
        simp only [hr, Option.some.injEq] at h
        exact h ▸ runFrom_le (Nat.zero_le _) hr
    · simp at h

/-! ## Parts -/

namespace Reading

/-- A part was read that may give a measure, `named` arguments being named before it. -/
structure Measured (named : Nat) (r : Option Measure × Reading) : Prop where
  named_le : named ≤ r.2.cursor.named
  within : ∀ w ∈ r.1, w.Within r.2.cursor.named

theorem named_readIndex (r : Reading) : r.readIndex.cursor.named = r.cursor.named := by
  unfold readIndex
  split <;> rfl

theorem named_le_countIndex (r : Reading) : r.cursor.named ≤ r.countIndex.cursor.named := by
  unfold countIndex
  split
  · exact Nat.le_max_left _ _
  · exact Nat.le_refl _

theorem named_readLastIndex (r : Reading) : r.readLastIndex.cursor.named = r.cursor.named := by
  unfold readLastIndex
  split
  · rfl
  · exact r.named_readIndex

theorem takeStar_measured (r : Reading) (rest : List Char) :
    Measured r.cursor.named (r.takeStar rest) := by
  refine ⟨Nat.le_max_left _ _, ?_⟩
  intro w hw
  obtain rfl := Option.mem_some.mp hw
  exact Nat.le_max_right r.cursor.named (r.cursor.next + 1)

theorem readWidth_measured (r : Reading) : Measured r.cursor.named r.readWidth := by
  unfold readWidth
  split
  · exact r.takeStar_measured _
  · split
    · next n rest hn =>
      refine ⟨Nat.le_refl _, ?_⟩
      intro w hw
      obtain rfl := Option.mem_some.mp hw
      exact Numeral.read_le (congrArg Prod.fst hn)
    · exact ⟨Nat.le_refl _, by simp⟩

theorem readPrecision_measured (r : Reading) : Measured r.cursor.named r.readPrecision := by
  unfold readPrecision
  split
  · next cs h =>
    -- The index behind the point comes first and may name an argument.
    have hi := named_le_countIndex
      { r with proper := r.proper && !r.indexed, rest := cs }.readIndex
    rw [named_readIndex] at hi
    generalize { r with proper := r.proper && !r.indexed, rest := cs }.readIndex.countIndex = q
      at hi ⊢
    dsimp only at hi ⊢
    split
    · next rest _ =>
      have ht := q.takeStar_measured rest
      exact ⟨Nat.le_trans hi ht.named_le, ht.within⟩
    · refine ⟨hi, ?_⟩
      intro w hw
      obtain rfl := Option.mem_some.mp hw
      cases hn : (Numeral.read q.rest).1 with
      | none => exact Nat.zero_le _
      | some n => exact Numeral.read_le hn
  · exact ⟨Nat.le_refl _, by simp⟩

end Reading

/-! ## Verbs and whole directives -/

theorem Unicode.isAlpha_iff {c : Char} :
    c.isAlpha = true ↔ (65 ≤ c.toNat ∧ c.toNat ≤ 90) ∨ (97 ≤ c.toNat ∧ c.toNat ≤ 122) := by
  change (decide (c.val ≥ 'A'.val ∧ c.val ≤ 'Z'.val) ||
    (decide (c.val ≥ 'a'.val) && decide (c.val ≤ 'z'.val))) = true ↔ _
  simp only [Bool.or_eq_true, Bool.and_eq_true, decide_eq_true_eq, ge_iff_le,
    UInt32.le_iff_toNat_le]
  rfl

theorem Unicode.not_isAlpha_of_isDigit {c : Char} (h : c.isDigit = true) : c.isAlpha = false := by
  have hrange := Decimal.isDigit_range h
  rw [← Bool.not_eq_true, isAlpha_iff]
  omega

theorem Unicode.isUppercase_of_isAlpha {c : Char} (h : c.isAlpha = true) :
    Unicode.isUppercase c = c.isUpper := by
  have hn : c.toNat ≤ 122 := by
    rw [isAlpha_iff] at h
    omega
  have ht : Unicode.uppercaseRanges = (0xc0, 0xd6) :: Unicode.uppercaseRanges.tail := rfl
  rw [Unicode.isUppercase, ht, Unicode.Ranges.contains, if_pos (by omega)]
  rw [decide_eq_false (by omega), Bool.or_false]

/-- A verb puts the finishing touch to the flags. -/
theorem Directive.wellFormed_of_marked {flags : Flags} (hf : flags.Marked) {c : Char} {up : Bool}
    (hu : Unicode.isUppercase c = up) {named : Nat} {width precision : Option Measure}
    (hw : ∀ w ∈ width, w.Within named) (hp : ∀ w ∈ precision, w.Within named) {arg : Nat}
    (ha : arg < named) :
    WellFormed c named ⟨.ofChar c, if up then { flags with upper := true } else flags, width,
      precision, arg⟩ := by
  refine ⟨rfl, ?_, ?_, hw, hp, ha⟩
  · rw [hu]
    cases up with
    | true => rfl
    | false => exact hf.upper
  · cases up with
    | true => exact hf.padding
    | false => exact hf.padding

/-- A directive was read, `named` arguments being named before it. -/
structure Read.Sound (named : Nat) (r : Read) : Prop where
  named_le : named ≤ r.cursor.named
  piece : r.piece.WellFormed r.cursor.named

theorem Reading.readVerb_sound (r : Reading) {flags : Flags} (hf : flags.Marked)
    {width precision : Option Measure} (hw : ∀ w ∈ width, w.Within r.cursor.named)
    (hp : ∀ w ∈ precision, w.Within r.cursor.named) :
    (r.readVerb flags width precision).Sound r.cursor.named := by
  have hc := r.named_le_countIndex
  unfold readVerb
  split
  · exact ⟨Nat.le_refl _, trivial⟩
  · next c rest _ =>
    dsimp only
    generalize r.countIndex.cursor = cursor at hc ⊢
    have htake : cursor.named ≤ cursor.take.named := Nat.le_max_left _ _
    have hle := Nat.le_trans hc htake
    by_cases hpercent : c = '%'
    · rw [if_pos hpercent]
      exact ⟨hc, trivial⟩
    rw [if_neg hpercent]
    by_cases hproper : r.proper = true
    · rw [if_pos hproper]
      refine ⟨hle, Directive.wellFormed_of_marked hf rfl ?_ ?_ ?_⟩
      · exact fun w h => (hw w h).mono hle
      · exact fun w h => (hp w h).mono hle
      · exact Nat.le_max_right cursor.named (cursor.next + 1)
    · rw [if_neg hproper]
      exact ⟨hc, trivial⟩

namespace Read

theorem Sound.mono {m n : Nat} (h : m ≤ n) {r : Read} (hr : r.Sound n) : r.Sound m :=
  ⟨Nat.le_trans h hr.named_le, hr.piece⟩

theorem general_sound {flags : Flags} (hf : flags.Marked) (cursor : Cursor) (cs : List Char) :
    (general flags cursor cs).Sound cursor.named := by
  have hstart := Reading.named_le_countIndex (Reading.start cursor cs).readIndex
  rw [Reading.named_readIndex] at hstart
  rw [general]
  generalize (Reading.start cursor cs).readIndex.countIndex = r at hstart ⊢
  have hwidth := r.readWidth_measured
  have hprecision := r.readWidth.2.readPrecision_measured
  have hlast := r.readWidth.2.readPrecision.2.named_readLastIndex
  have hw : ∀ w ∈ r.readWidth.1,
      w.Within r.readWidth.2.readPrecision.2.readLastIndex.cursor.named := by
    rw [hlast]
    exact fun w hw => (hwidth.within w hw).mono hprecision.named_le
  have hp : ∀ w ∈ r.readWidth.2.readPrecision.1,
      w.Within r.readWidth.2.readPrecision.2.readLastIndex.cursor.named := by
    rw [hlast]
    exact hprecision.within
  have hverb := Reading.readVerb_sound _ hf hw hp
  refine hverb.mono ?_
  rw [hlast]
  exact Nat.le_trans hstart (Nat.le_trans hwidth.named_le hprecision.named_le)

theorem plain_sound {flags : Flags} (hf : flags.Marked) (cursor : Cursor) {c : Char}
    (hc : c.isAlpha = true) (rest : List Char) :
    (plain flags cursor c rest).Sound cursor.named := by
  refine ⟨Nat.le_max_left _ _, ?_⟩
  exact Directive.wellFormed_of_marked hf (Unicode.isUppercase_of_isAlpha hc) (by simp) (by simp)
    (Nat.le_max_right cursor.named (cursor.next + 1))

/-- What is read behind any percent sign is sound, through every exit. -/
theorem directive_sound (cursor : Cursor) (cs : List Char) :
    (directive cursor cs).Sound cursor.named := by
  have hf := Flags.marked_empty.readAll cs
  unfold directive
  split
  · exact ⟨Nat.le_refl _, trivial⟩
  · next flags c rest _ h =>
    rw [h] at hf
    split
    · next ha => exact plain_sound hf cursor ha rest
    · exact general_sound hf cursor _
  · next flags h =>
    rw [h] at hf
    exact general_sound hf cursor _

end Read

/-! ## Scans -/

namespace DirectiveReader

def Sound (reader : DirectiveReader) : Prop :=
  ∀ cursor cs, (reader.read cursor cs).Sound cursor.named

theorem standard_sound : standard.Sound := Read.directive_sound

/-- Arguments stay named to the end of a scan. -/
theorem Sound.pieces {reader : DirectiveReader} (h : reader.Sound) (cursor : Cursor)
    (cs : List Char) :
    cursor.named ≤ (reader.pieces cursor cs).2 ∧
      ∀ p ∈ (reader.pieces cursor cs).1, p.WellFormed (reader.pieces cursor cs).2 := by
  induction cursor, cs using pieces.induct reader with
  | case1 cursor => simp [pieces_nil]
  | case2 cursor cs r ps named _ ih =>
    have hr := h cursor cs
    rw [pieces_percent]
    refine ⟨Nat.le_trans hr.named_le ih.1, ?_⟩
    intro p hp
    rcases List.mem_cons.mp hp with rfl | hp
    · exact hr.piece.mono ih.1
    · exact ih.2 p hp
  | case3 cursor c cs hc ps named _ ih =>
    rw [pieces_other reader cursor hc]
    refine ⟨ih.1, ?_⟩
    intro p hp
    rcases List.mem_cons.mp hp with rfl | hp
    · trivial
    · exact ih.2 p hp

end DirectiveReader

end PercentFormat
