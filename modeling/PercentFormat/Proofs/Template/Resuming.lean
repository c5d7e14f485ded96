import PercentFormat.Proofs.Template.Compilation
import PercentFormat.Proofs.Template.Joining

/-!
# Going on behind items

The number of arguments named so far is only ever raised, and decides nothing else. So what is
behind items is compiled by itself, from the argument that they leave as the next one.
-/

namespace PercentFormat

/-! ## Arguments named before -/

/-- A cursor when some arguments were named before. -/
def Cursor.naming (n : Nat) (c : Cursor) : Cursor := { c with named := max n c.named }

def Reading.naming (n : Nat) (r : Reading) : Reading := { r with cursor := r.cursor.naming n }

def Read.naming (n : Nat) (r : Read) : Read := { r with cursor := r.cursor.naming n }

namespace Cursor

theorem touch_naming (n : Nat) (c : Cursor) : (c.naming n).touch = c.touch.naming n := by
  simp only [naming, touch, Nat.max_assoc]

theorem take_naming (n : Nat) (c : Cursor) : (c.naming n).take = c.take.naming n := by
  rw [take, touch_naming]
  rfl

end Cursor

namespace Reading

variable (n : Nat) (r : Reading)

theorem readIndex_naming : (r.naming n).readIndex = r.readIndex.naming n := by
  have hrest : (r.naming n).rest = r.rest := rfl
  unfold readIndex
  rw [hrest]
  split <;> rfl

theorem countIndex_naming : (r.naming n).countIndex = r.countIndex.naming n := by
  have hindexed : (r.naming n).indexed = r.indexed := rfl
  have htouch : (r.naming n).cursor.touch = r.cursor.touch.naming n := r.cursor.touch_naming n
  unfold countIndex
  rw [hindexed, htouch]
  split <;> rfl

theorem takeStar_naming (rest : List Char) :
    (r.naming n).takeStar rest = ((r.takeStar rest).1, (r.takeStar rest).2.naming n) := by
  have htake : (r.naming n).cursor.take = r.cursor.take.naming n := r.cursor.take_naming n
  rw [takeStar, htake]
  rfl

theorem readWidth_naming :
    (r.naming n).readWidth = (r.readWidth.1, r.readWidth.2.naming n) := by
  have hrest : (r.naming n).rest = r.rest := rfl
  unfold readWidth
  rw [hrest]
  split
  · exact r.takeStar_naming n _
  · split <;> rfl

theorem readPrecision_naming :
    (r.naming n).readPrecision = (r.readPrecision.1, r.readPrecision.2.naming n) := by
  have hrest : (r.naming n).rest = r.rest := rfl
  unfold readPrecision
  rw [hrest]
  split
  · next cs _ =>
    have hindex : (Reading.mk (r.naming n).cursor (r.naming n).indexed
        ((r.naming n).proper && !(r.naming n).indexed) cs).readIndex.countIndex =
          (Reading.mk r.cursor r.indexed (r.proper && !r.indexed)
            cs).readIndex.countIndex.naming n := by
      rw [← countIndex_naming, ← readIndex_naming]
      rfl
    dsimp only
    rw [hindex]
    generalize (Reading.mk r.cursor r.indexed (r.proper && !r.indexed) cs).readIndex.countIndex = q
    have hrest : (q.naming n).rest = q.rest := rfl
    rw [hrest]
    split
    · exact q.takeStar_naming n _
    · rfl
  · rfl

theorem readLastIndex_naming : (r.naming n).readLastIndex = r.readLastIndex.naming n := by
  have hindexed : (r.naming n).indexed = r.indexed := rfl
  unfold readLastIndex
  rw [hindexed, readIndex_naming]
  split <;> rfl

theorem readVerb_naming (flags : Flags) (w p : Option Measure) :
    (r.naming n).readVerb flags w p = (r.readVerb flags w p).naming n := by
  have hrest : (r.naming n).rest = r.rest := rfl
  have hproper : (r.naming n).proper = r.proper := rfl
  have hcount := congrArg Reading.cursor (r.countIndex_naming n)
  unfold readVerb
  rw [hrest, hproper]
  split
  · rfl
  · dsimp only
    rw [hcount]
    split
    · rfl
    · split
      · have htake := r.countIndex.cursor.take_naming n
        simp only [Reading.naming, htake]
        rfl
      · rfl

end Reading

namespace Read

variable (n : Nat) (cursor : Cursor)

theorem general_naming (flags : Flags) (cs : List Char) :
    general flags (cursor.naming n) cs = (general flags cursor cs).naming n := by
  have hstart : Reading.start (cursor.naming n) cs = (Reading.start cursor cs).naming n := rfl
  simp only [general, hstart, Reading.readIndex_naming, Reading.countIndex_naming,
    Reading.readWidth_naming, Reading.readPrecision_naming, Reading.readLastIndex_naming,
    Reading.readVerb_naming]

theorem directive_naming (cs : List Char) :
    directive (cursor.naming n) cs = (directive cursor cs).naming n := by
  have htake := cursor.take_naming n
  unfold directive
  split
  · rfl
  · split
    · simp only [plain, htake]
      rfl
    · exact general_naming n cursor _ _
  · exact general_naming n cursor _ _

end Read

theorem DirectiveReader.pieces_naming (n : Nat) (cursor : Cursor) (cs : List Char) :
    standard.pieces (cursor.naming n) cs =
      ((standard.pieces cursor cs).1, max n (standard.pieces cursor cs).2) := by
  induction cursor, cs using pieces.induct standard with
  | case1 cursor => simp only [pieces_nil, Cursor.naming]
  | case2 cursor cs r ps named _ ih =>
    have hread : standard.read (cursor.naming n) cs = (standard.read cursor cs).naming n :=
      Read.directive_naming n cursor cs
    rw [pieces_percent, pieces_percent, hread]
    simp only [Read.naming]
    rw [ih]
  | case3 cursor c cs hc ps named _ ih =>
    rw [pieces_other standard _ hc, pieces_other standard _ hc, ih]

/-! ## Items and what is behind them -/

/-- The template of a text that goes on with a given argument. -/
def Template.compileFrom (next : Nat) (cs : List Char) : Template :=
  let (ps, named) := DirectiveReader.standard.pieces { next := next } cs
  ofPieces ps named

open Grammar

/-- Items are compiled apart from what is behind them. -/
theorem Template.compile_items (items : List Item) (cs : List Char) :
    compile (String.ofList (print items ++ cs)) =
      compile (String.ofList (print items)) ++ compileFrom (behindAll {} items).next cs := by
  have hcursor : behindAll {} items =
      Cursor.naming (behindAll {} items).named { next := (behindAll {} items).next } := by
    simp [Cursor.naming]
  obtain ⟨hnamed, hmerge⟩ := pieces_items items {} cs
  obtain ⟨hnamed', hmerge'⟩ := pieces_items items {} []
  rw [hcursor, DirectiveReader.pieces_naming] at hnamed hmerge
  rw [DirectiveReader.pieces_nil, List.append_nil] at hnamed'
  rw [DirectiveReader.pieces_nil, List.append_nil, List.append_nil] at hmerge'
  rw [compile_eq, compile_eq, String.toList_ofList, String.toList_ofList, ofPieces_congr hmerge,
    ofPieces_congr hmerge', hnamed, hnamed', ofPieces_append]
  rfl

end PercentFormat
