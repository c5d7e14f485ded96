import PercentFormat.Proofs.Template.Compilation
import PercentFormat.Proofs.Template.Joining
import PercentFormat.Proofs.Template.Shortcuts
import PercentFormat.Proofs.Template.WellFormed

/-!
# Directives without a verb

A format may end before the verb of its last directive. A width or precision beyond `maxNumber`
takes the rest of the format with it, so its directive has no verb either. In both cases the
template goes on with a literal that says so, and what stands behind the number does not matter.
-/

namespace PercentFormat

/-! ## Numbers that are too large -/

namespace Numeral

/-- Reads a run of digits as `runFrom` does, and lists the numbers that it goes through. -/
def runThrough (n : Nat) : List Char → List Nat × Option (Nat × List Char)
  | [] => ([], some (n, []))
  | c :: cs =>
    if c.isDigit then
      let m := 10 * n + digitValue c
      if maxNumber < m then ([m], none) else (m :: (runThrough m cs).1, (runThrough m cs).2)
    else ([], some (n, c :: cs))

theorem runThrough_snd (n : Nat) (cs : List Char) : (runThrough n cs).2 = runFrom n cs := by
  induction cs generalizing n with
  | nil => rfl
  | cons c cs ih =>
    simp only [runThrough, runFrom]
    split_ifs with hd hlarge
    · rfl
    · exact ih _
    · rfl

theorem digitValue_le {c : Char} (h : c.isDigit = true) : digitValue c ≤ 9 := by
  have hrange := Decimal.isDigit_range h
  have hzero : '0'.toNat = 0x30 := rfl
  rw [digitValue, hzero]
  omega

/-- No number is more than one digit ahead of the largest that is allowed. -/
theorem le_of_mem_runThrough {n : Nat} (hn : n ≤ maxNumber) {cs : List Char} {m : Nat}
    (h : m ∈ (runThrough n cs).1) : m ≤ 10 * maxNumber + 9 := by
  induction cs generalizing n with
  | nil => simp [runThrough] at h
  | cons c cs ih =>
    simp only [runThrough] at h
    split_ifs at h with hd hlarge
    · have hdigit := digitValue_le hd
      rw [List.mem_singleton] at h
      omega
    · have hdigit := digitValue_le hd
      rcases List.mem_cons.mp h with h | h
      · omega
      · exact ih (Nat.le_of_not_lt hlarge) h
    · exact absurd h List.not_mem_nil

theorem runFrom_eq_none {n : Nat} (hn : n ≤ maxNumber) {ds : List Char}
    (hd : ∀ c ∈ ds, c.isDigit = true) (hv : maxNumber < Decimal.valueFrom n ds)
    (cs : List Char) : runFrom n (ds ++ cs) = none := by
  induction ds generalizing n with
  | nil => exact absurd hv (Nat.not_lt.mpr hn)
  | cons d ds ih =>
    obtain ⟨hdigit, hrest⟩ := List.forall_mem_cons.mp hd
    rw [List.cons_append, runFrom, if_pos hdigit]
    by_cases hlarge : maxNumber < 10 * n + digitValue d
    · exact if_pos hlarge
    · exact (if_neg hlarge).trans (ih (Nat.le_of_not_lt hlarge) hrest hv)

end Numeral

namespace Grammar

/-- A number beyond `maxNumber`, in any spelling. -/
structure Excess where
  chars : List Char
  value : Nat
  spelled : Decimal.value? chars = some value
  lt_value : maxNumber < value

/-- Nothing of the text is left behind the number. -/
theorem Excess.read (n : Excess) (cs : List Char) : Numeral.read (n.chars ++ cs) = (none, []) := by
  obtain ⟨hne, hdigit, hvalue⟩ := Decimal.value?_eq_some_iff.mp n.spelled
  have hrun := Numeral.runFrom_eq_none (Nat.zero_le _) hdigit (hvalue ▸ n.lt_value) cs
  obtain ⟨d, ds, hds⟩ := List.exists_cons_of_ne_nil hne
  rw [hds] at hdigit hrun ⊢
  rw [List.cons_append] at hrun ⊢
  simp only [Numeral.read, hdigit d List.mem_cons_self, if_true, hrun]

/-- A directive up to its verb, which is missing. -/
structure Stub where
  marks : List Mark
  width : Width
  precision : Precision
  index : Option Index

def Stub.body (d : Stub) : List Char := d.width.print ++ (d.precision.print ++ printIndex d.index)

def Stub.print (d : Stub) : List Char := '%' :: d.marks.map Mark.char ++ d.body

/-- A directive up to a number that is too large. -/
inductive Oversized
  | width (marks : List Mark) (n : Excess) (unmarked : n.chars.head? ≠ some '0')
  | precision (marks : List Mark) (width : Width) (m : Option Index) (n : Excess)

def Oversized.marks : Oversized → List Mark
  | .width marks _ _ => marks
  | .precision marks _ _ _ => marks

def Oversized.body : Oversized → List Char
  | .width _ n _ => n.chars
  | .precision _ w m n => w.print ++ '.' :: (printIndex m ++ n.chars)

def Oversized.print (d : Oversized) : List Char := '%' :: d.marks.map Mark.char ++ d.body

/-! ## Texts behind the marks -/

theorem unmarked_numeral {ds : List Char} {n : Nat} (h : Decimal.value? ds = some n)
    (hz : ds.head? ≠ some '0') (cs : List Char) : Unmarked (ds ++ cs) := by
  obtain ⟨hne, hdigit, -⟩ := Decimal.value?_eq_some_iff.mp h
  intro c hc hm
  rw [List.head?_append_of_ne_nil _ hne, Option.mem_def] at hc
  have hd := hdigit c (List.mem_of_mem_head? hc)
  simp only [List.mem_cons, List.not_mem_nil, or_false] at hm
  rcases hm with rfl | rfl | rfl | rfl | rfl
  · exact absurd hd (by decide)
  · exact absurd hd (by decide)
  · exact absurd hd (by decide)
  · exact absurd hd (by decide)
  · exact hz hc

theorem Width.unmarked_append (w : Width) {cs : List Char} (h : Unmarked cs) :
    Unmarked (w.print ++ cs) := by
  cases w with
  | absent => exact h
  | fixed n hn => exact unmarked_numeral n.spelled hn cs
  | star m => cases m <;> simp [Unmarked, Width.print, printIndex, Index.print]

/-- Behind the width stands a point, or the bracket of the last index, or nothing. -/
theorem Stub.head_tail (d : Stub) {c : Char}
    (h : (d.precision.print ++ printIndex d.index).head? = some c) :
    c = '.' ∨ (c = '[' ∧ d.precision = .absent) := by
  cases hp : d.precision with
  | absent =>
    rw [hp] at h
    cases hi : d.index with
    | none => simp [hi, Precision.print, printIndex] at h
    | some m =>
      rw [hi] at h
      exact .inr ⟨(Option.some.inj h).symm, rfl⟩
  | _ =>
    rw [hp] at h
    exact .inl (Option.some.inj h).symm

theorem Stub.body_unmarked (d : Stub) : Unmarked d.body := by
  apply d.width.unmarked_append
  intro c hc
  rcases d.head_tail hc with rfl | ⟨rfl, -⟩ <;> decide

theorem Oversized.body_unmarked (d : Oversized) (cs : List Char) : Unmarked (d.body ++ cs) := by
  cases d with
  | width marks n hn => exact unmarked_numeral n.spelled hn cs
  | precision marks w m n =>
    rw [Oversized.body, List.append_assoc]
    apply w.unmarked_append
    simp [Unmarked]

end Grammar

/-! ## The end of the text -/

open Grammar

namespace Reading

theorem readVerb_end {r : Reading} (h : r.rest = []) (flags : Flags) (w p : Option Measure) :
    r.readVerb flags w p = ⟨.literal noVerb, r.cursor, []⟩ := by
  simp only [readVerb, h]

theorem rest_readLastIndex_end {r : Reading} (h : r.rest = []) : r.readLastIndex.rest = [] := by
  have hle := length_readLastIndex_le r
  rw [h, List.length_nil] at hle
  exact List.length_eq_zero_iff.mp (Nat.le_zero.mp hle)

theorem rest_readIndex_end (cursor : Cursor) (m : Option Index) :
    (start cursor (printIndex m)).readIndex.rest = [] := by
  cases m with
  | none => rfl
  | some m =>
    have hread := readIndex_some cursor m []
    rw [List.append_nil] at hread
    rw [printIndex, hread]

theorem rest_countIndex_end (cursor : Cursor) (m : Option Index) :
    (start cursor (printIndex m)).readIndex.countIndex.rest = [] :=
  (rest_countIndex _).trans (rest_readIndex_end cursor m)

theorem readPrecision_print (cursor : Cursor) {p : Precision} (hp : p ≠ .point)
    (m : Option Index) :
    (start cursor (p.print ++ printIndex m)).readPrecision =
      (p.measure cursor.next, start (behind cursor (p.measure cursor.next)) (printIndex m)) := by
  cases p with
  | absent =>
    have hpoint : (printIndex m).head? ≠ some '.' := by
      cases m <;> simp [printIndex, Index.print]
    exact readPrecision_none hpoint
  | point => exact absurd rfl hp
  | fixed n =>
    have hu : Undigited (printIndex m) := by
      cases m <;> simp [Undigited, printIndex, Index.print]
    exact readPrecision_fixed cursor n hu
  | star k => exact readPrecision_star cursor k _

theorem readPrecision_point_end (cursor : Cursor) (m : Option Index) :
    (start cursor (Precision.point.print ++ printIndex m)).readPrecision =
      (some (.fixed 0), (start cursor (printIndex m)).readIndex.countIndex) := by
  have hrest := rest_countIndex_end cursor m
  rw [Precision.print, List.cons_append, List.nil_append]
  exact readPrecision_point cursor (by rw [hrest]; simp [Undigited]) (by rw [hrest]; simp)

theorem rest_readPrecision_end (cursor : Cursor) (p : Precision) (m : Option Index) :
    (start cursor (p.print ++ printIndex m)).readPrecision.2.readLastIndex.rest = [] := by
  by_cases hp : p = .point
  · rw [hp, readPrecision_point_end]
    exact rest_readLastIndex_end (rest_countIndex_end cursor m)
  · rw [readPrecision_print cursor hp]
    exact rest_readIndex_end _ m

/-- With neither width nor precision the index stands alone, and is read as that of the width. -/
theorem readMeasures_index_end (cursor : Cursor) {d : Stub}
    (h : d.width = .absent ∧ d.precision = .absent) :
    (start cursor d.body).readIndex.countIndex.readWidth.2.readPrecision =
      (none, (start cursor (printIndex d.index)).readIndex.countIndex) := by
  have hbody : d.body = printIndex d.index := by
    rw [Stub.body, h.1, h.2]
    rfl
  have hrest := rest_countIndex_end cursor d.index
  rw [hbody, readWidth_none (by rw [hrest]; simp [Undigited]) (by rw [hrest]; simp)]
  exact readPrecision_none (by rw [hrest]; simp)

theorem readWidth_stub (cursor : Cursor) {d : Stub}
    (h : ¬ (d.width = .absent ∧ d.precision = .absent)) :
    (start cursor d.body).readIndex.countIndex.readWidth =
      (d.width.measure cursor.next, start (behind cursor (d.width.measure cursor.next))
        (d.precision.print ++ printIndex d.index)) := by
  apply readWidth_print cursor d.width
  · intro hw hc
    rcases d.head_tail hc with hpoint | ⟨-, hp⟩
    · exact absurd hpoint (by decide)
    · exact h ⟨hw, hp⟩
  · intro c hc
    rcases d.head_tail hc with rfl | ⟨rfl, -⟩ <;> rfl
  · exact fun _ hc => absurd (d.head_tail hc) (by simp)

theorem readWidth_excess (cursor : Cursor) (n : Excess) (cs : List Char) :
    (start cursor (n.chars ++ cs)).readIndex.countIndex.readWidth = (none, start cursor []) := by
  have hstar := Decimal.head?_numeral n.spelled (show '*'.isDigit = false from rfl) cs
  rw [readIndex_none cursor (Decimal.head?_numeral n.spelled rfl cs)]
  simp only [countIndex, start, Bool.false_eq_true, if_false, readWidth]
  split
  · next rest hs => exact absurd (congrArg List.head? hs) hstar
  · simp only [n.read]

/-- The index is still read, the number and all that follows it are gone. -/
theorem readPrecision_excess (cursor : Cursor) (m : Option Index) (n : Excess) (cs : List Char) :
    (start cursor ('.' :: (printIndex m ++ (n.chars ++ cs)))).readPrecision =
      (some (.fixed 0),
        { (start cursor (printIndex m)).readIndex.countIndex with rest := [] }) := by
  have hstar := Decimal.head?_numeral n.spelled (show '*'.isDigit = false from rfl) cs
  have hindex : (start cursor (printIndex m ++ (n.chars ++ cs))).readIndex.countIndex =
      { (start cursor (printIndex m)).readIndex.countIndex with rest := n.chars ++ cs } := by
    cases m with
    | none =>
      rw [printIndex, List.nil_append,
        readIndex_none cursor (Decimal.head?_numeral n.spelled rfl cs)]
      rfl
    | some m =>
      have hread := readIndex_some cursor m []
      rw [List.append_nil] at hread
      rw [printIndex, readIndex_some, hread]
      rfl
  simp only [start] at hindex
  simp only [readPrecision, start, Bool.not_false, Bool.and_self, hindex]
  split
  · next rest hs => exact absurd (congrArg List.head? hs) hstar
  · simp only [n.read, Option.getD_none]

end Reading

namespace Read

theorem directive_of_unmarked (marks : List Mark) (cursor : Cursor) {cs : List Char}
    (h : Unmarked cs) :
    directive cursor (marks.map Mark.char ++ cs) = general (flagsOf marks) cursor cs := by
  rw [directive_eq_inFull, inFull, readAll_marks marks h]

/-- The verb is read where a directive without one ends. -/
theorem rest_stub (d : Stub) (cursor : Cursor) :
    let width := (Reading.start cursor d.body).readIndex.countIndex.readWidth
    width.2.readPrecision.2.readLastIndex.rest = [] := by
  dsimp only
  by_cases h : d.width = .absent ∧ d.precision = .absent
  · rw [Reading.readMeasures_index_end cursor h]
    exact Reading.rest_readLastIndex_end (Reading.rest_countIndex_end cursor d.index)
  · rw [Reading.readWidth_stub cursor h]
    exact Reading.rest_readPrecision_end _ d.precision d.index

theorem general_stub (d : Stub) (cursor : Cursor) :
    ∃ cursor', general (flagsOf d.marks) cursor d.body = ⟨.literal noVerb, cursor', []⟩ :=
  ⟨_, Reading.readVerb_end (rest_stub d cursor) _ _ _⟩

theorem general_oversized (d : Oversized) (cursor : Cursor) :
    ∃ cursor', ∀ cs, general (flagsOf d.marks) cursor (d.body ++ cs) =
      ⟨.literal noVerb, cursor', []⟩ := by
  cases d with
  | width marks n hn =>
    refine ⟨cursor, ?_⟩
    intro cs
    rw [general, Oversized.body]
    simp only [Reading.readWidth_excess]
    rfl
  | precision marks w m n =>
    refine ⟨({ (Reading.start (Grammar.behind cursor (w.measure cursor.next))
      (printIndex m)).readIndex.countIndex with rest := [] } : Reading).readLastIndex.cursor, ?_⟩
    intro cs
    have hpoint : Unbracketed ('.' :: (printIndex m ++ (n.chars ++ cs))) := by simp [Unbracketed]
    have hwidth := Reading.readWidth_print cursor w (fun _ => hpoint) (by simp [Undigited])
      (by simp)
    have hbody : (Oversized.precision marks w m n).body ++ cs =
        w.print ++ '.' :: (printIndex m ++ (n.chars ++ cs)) := by
      simp [Oversized.body]
    rw [general, hbody]
    simp only [hwidth, Reading.readPrecision_excess]
    exact Reading.readVerb_end (Reading.rest_readLastIndex_end rfl) _ _ _

end Read

/-! ## A literal at the end -/

/-- Tokens with a literal at their end, from one byte offset to another. It goes on with a literal
that stands there. -/
def Token.thenLiteral (start stop : Nat) : List Token → List Token
  | [] => [.literal ⟨start, stop⟩]
  | [.literal span] => [.literal ⟨span.start, stop⟩]
  | k :: ks => k :: thenLiteral start stop ks

/-- A template with a text at its end. -/
def Template.followedBy (t : Template) (s : String) (required : Nat) : Template where
  text := t.text ++ s
  tokens := Token.thenLiteral t.text.utf8ByteSize (t.text ++ s).utf8ByteSize t.tokens
  required := required
  minSize := t.minSize + s.utf8ByteSize

theorem Token.join_literal (start size : Nat) (ks : List Token) :
    join start ks [.literal ⟨0, size⟩] = thenLiteral start (start + size) ks := by
  fun_induction thenLiteral start (start + size) ks with
  | case1 => rfl
  | case2 span => rfl
  | case3 k ks hlast ih =>
    rw [← ih]
    rcases ks with _ | ⟨j, ks⟩
    · cases k with
      | literal span => exact (hlast span rfl rfl).elim
      | directive span d => rfl
    · cases k <;> rfl

namespace Template

theorem ofPieces_append_literal (ps : List Piece) (m n : Nat) {s : String} (hs : s ≠ "") :
    ofPieces (ps ++ [.literal s]) n = (ofPieces ps m).followedBy s n := by
  have hjoin := ofPieces_append ps [.literal s] n n
  have htext : ((ofPieces ps m).text ++ s).utf8ByteSize =
      (ofPieces ps m).text.utf8ByteSize + s.utf8ByteSize := String.utf8ByteSize_append
  rw [Nat.max_self, ofPieces_literal hs] at hjoin
  rw [hjoin, followedBy, htext, ← Token.join_literal]
  exact congrArg (fun k => (⟨_, _, k, _⟩ : Template)) (Nat.max_self n)

/-- A literal without a verb stands behind the pieces of the items. -/
theorem compile_noVerb (items : List Item) {cs : List Char} {cursor : Cursor}
    (h : Read.directive (behindAll {} items) cs = ⟨.literal noVerb, cursor, []⟩) :
    compile (String.ofList (print items ++ '%' :: cs)) =
      ofPieces (pieces 0 items ++ [.literal noVerb]) cursor.named := by
  obtain ⟨hnamed, hmerge⟩ := pieces_items items {} ('%' :: cs)
  have hread : DirectiveReader.standard.read (behindAll {} items) cs =
      ⟨.literal noVerb, cursor, []⟩ := h
  rw [DirectiveReader.pieces_percent, hread, DirectiveReader.pieces_nil] at hnamed hmerge
  rw [compile_eq, String.toList_ofList, ofPieces_congr hmerge, hnamed]

theorem compile_of_noVerb (items : List Item) {cs : List Char} {cursor : Cursor}
    (h : Read.directive (behindAll {} items) cs = ⟨.literal noVerb, cursor, []⟩) :
    compile (String.ofList (print items ++ '%' :: cs)) =
      (compile (String.ofList (print items))).followedBy noVerb cursor.named := by
  obtain ⟨-, hitems⟩ := pieces_items items {} []
  rw [DirectiveReader.pieces_nil, List.append_nil, List.append_nil] at hitems
  rw [compile_noVerb items h, compile_eq, String.toList_ofList, ofPieces_congr hitems]
  exact ofPieces_append_literal _ _ _ (by decide)

/-- A directive without a verb, whether it is cut off or too large to be read, is said to be one.
Nothing behind a number that is too large is looked at, and no such number is read to its end. -/
theorem compile_unfinished (items : List Item) :
    (∀ d : Stub, ∃ required,
      compile (String.ofList (print items ++ d.print)) =
        (compile (String.ofList (print items))).followedBy noVerb required) ∧
    (∀ d : Oversized,
      (∃ required,
        compile (String.ofList (print items ++ d.print)) =
          (compile (String.ofList (print items))).followedBy noVerb required) ∧
      ∀ cs, compile (String.ofList (print items ++ d.print ++ cs)) =
        compile (String.ofList (print items ++ d.print))) ∧
    ∀ cs, (Numeral.runThrough 0 cs).2 = Numeral.runFrom 0 cs ∧
      ∀ m ∈ (Numeral.runThrough 0 cs).1, m ≤ 10 * maxNumber + 9 := by
  refine ⟨?_, ?_, ?_⟩
  · intro d
    obtain ⟨cursor, h⟩ := Read.general_stub d (behindAll {} items)
    rw [← Read.directive_of_unmarked d.marks _ d.body_unmarked] at h
    exact ⟨cursor.named, compile_of_noVerb items h⟩
  · intro d
    obtain ⟨cursor, h⟩ := Read.general_oversized d (behindAll {} items)
    have hcompile : ∀ cs, compile (String.ofList (print items ++ d.print ++ cs)) =
        (compile (String.ofList (print items))).followedBy noVerb cursor.named := by
      intro cs
      have hread := h cs
      rw [← Read.directive_of_unmarked d.marks _ (d.body_unmarked cs)] at hread
      have hprint : print items ++ d.print ++ cs =
          print items ++ '%' :: (d.marks.map Mark.char ++ (d.body ++ cs)) := by
        simp [Oversized.print]
      rw [hprint]
      exact compile_of_noVerb items hread
    have hend := hcompile []
    rw [List.append_nil] at hend
    exact ⟨⟨cursor.named, hend⟩, fun cs => (hcompile cs).trans hend.symm⟩
  · intro cs
    refine ⟨Numeral.runThrough_snd 0 cs, ?_⟩
    intro m hm
    exact Numeral.le_of_mem_runThrough (Nat.zero_le _) hm

theorem compile_unfinished_mebi :
    compile "%1048576d, %s" = compile "%1048576" ∧
      1048576 ∈ (Numeral.runThrough 0 ['1', '0', '4', '8', '5', '7', '6']).1 ∧
      1048576 ≤ 10 * maxNumber + 9 := by
  have h := compile_unfinished []
  have hmem : 1048576 ∈ (Numeral.runThrough 0 ['1', '0', '4', '8', '5', '7', '6']).1 := by decide
  refine ⟨?_, hmem, (h.2.2 _).2 _ hmem⟩
  exact (h.2.1 (.width [] ⟨['1', '0', '4', '8', '5', '7', '6'], 1048576, rfl, by decide⟩
    (by decide))).2 ['d', ',', ' ', '%', 's']

end Template

end PercentFormat
