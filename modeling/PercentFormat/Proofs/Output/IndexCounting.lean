import PercentFormat.Proofs.Output.Markers
import PercentFormat.Proofs.Template.Unfinished

/-!
# Counting the indexes of a directive without a verb

Arguments behind the number that counts as named are surplus. An index right behind the marks or
behind a point counts at once, and a star counts its own. An index that is read later waits for the
verb, and is lost when the format ends before it.
-/

namespace PercentFormat

/-! ## Indexes and the arguments they name -/

namespace Grammar

/-- The argument that an index names, counted from zero. -/
def Index.arg (m : Index) : Nat := m.value - 1

def Width.index? : Width → Option Index
  | .star m => m
  | _ => none

def Precision.index? : Precision → Option Index
  | .star m => m
  | _ => none

namespace Stub

/-- All indexes of a directive without a verb. -/
def indexes (d : Stub) : List Index :=
  d.width.index?.toList ++ (d.precision.index?.toList ++ d.index.toList)

/-- Whether the last index stands right behind the marks or right behind a point. -/
def isEarly : Stub → Bool
  | ⟨_, .absent, .absent, _⟩ => true
  | ⟨_, _, .point, _⟩ => true
  | _ => false

/-- The arguments that stars take, `next` being the one that comes without an index. -/
def stars (next : Nat) (d : Stub) : List Nat :=
  let width := d.width.measure next
  let precision := d.precision.measure (follow next width)
  (argument? width).toList ++ (argument? precision).toList

/-- The argument of the last index, if it is one that counts. -/
def counted? (d : Stub) : Option Nat := if d.isEarly then d.index.map Index.arg else none

end Stub

theorem Index.value_le_iff (m : Index) {n : Nat} : m.value ≤ n ↔ m.arg < n := by
  have hpos := m.pos
  rw [arg]
  omega

theorem lt_needed {args : List Nat} {i : Nat} (h : i ∈ args) : i < needed args := by
  induction args with
  | nil => exact absurd h List.not_mem_nil
  | cons j args ih =>
    rw [needed, List.foldr_cons]
    rcases List.mem_cons.mp h with rfl | h
    · exact Nat.le_max_left _ _
    · exact Nat.lt_of_lt_of_le (ih h) (Nat.le_max_right _ _)

theorem Stub.isEarly_iff (d : Stub) :
    d.isEarly = true ↔ (d.width = .absent ∧ d.precision = .absent) ∨ d.precision = .point := by
  obtain ⟨marks, w, p, m⟩ := d
  cases w <;> cases p <;> simp [isEarly]

/-- A star takes the argument of its index. -/
theorem Stub.arg_mem_stars (d : Stub) (next : Nat) {m : Index}
    (hm : m ∈ d.width.index? ∨ m ∈ d.precision.index?) : m.arg ∈ d.stars next := by
  rw [stars, List.mem_append]
  rcases hm with hm | hm
  · left
    cases hw : d.width with
    | star k =>
      obtain rfl : k = some m := by simpa [hw, Width.index?] using hm
      exact List.mem_singleton_self _
    | _ => simp [hw, Width.index?] at hm
  · right
    cases hp : d.precision with
    | star k =>
      obtain rfl : k = some m := by simpa [hp, Precision.index?] using hm
      exact List.mem_singleton_self _
    | _ => simp [hp, Precision.index?] at hm

theorem Stub.arg_mem_counted? (d : Stub) (h : d.isEarly = true) {m : Index} (hm : m ∈ d.index) :
    m.arg ∈ d.counted?.toList := by
  rw [counted?, if_pos h, Option.mem_def.mp hm]
  exact List.mem_singleton_self _

/-- With the arguments of stars among others, only a last index that is not early can be missed. -/
theorem Stub.indexes_needed_iff (d : Stub) {next others : Nat}
    (hstars : needed (d.stars next) ≤ others) :
    (∀ m ∈ d.indexes, m.value ≤ max others (needed d.counted?.toList)) ↔
      d.isEarly = true ∨ ∀ m ∈ d.index, m.value ≤ others := by
  constructor
  · intro h
    by_cases hearly : d.isEarly = true
    · exact .inl hearly
    · right
      intro m hm
      have hle := h m (by simp [indexes, Option.mem_def.mp hm])
      rw [counted?, if_neg hearly] at hle
      simpa [needed] using hle
  · intro h m hm
    simp only [indexes, List.mem_append, Option.mem_toList, ← or_assoc] at hm
    rcases hm with hm | hm
    · have hneeded := m.value_le_iff.mpr (lt_needed (d.arg_mem_stars next hm))
      exact Nat.le_trans (Nat.le_trans hneeded hstars) (Nat.le_max_left _ _)
    · rcases h with hearly | hlast
      · have hneeded := m.value_le_iff.mpr (lt_needed (d.arg_mem_counted? hearly hm))
        exact Nat.le_trans hneeded (Nat.le_max_right _ _)
      · exact Nat.le_trans (hlast m hm) (Nat.le_max_left _ _)

end Grammar

open Grammar

/-! ## Reading up to the verb -/

namespace Reading

theorem named_readIndex_end (cursor : Cursor) (m : Option Index) :
    (start cursor (printIndex m)).readIndex.countIndex.cursor.named =
      max cursor.named (needed (m.map Index.arg).toList) := by
  cases m with
  | none => exact (Nat.max_zero _).symm
  | some m =>
    have hread := readIndex_some cursor m []
    rw [List.append_nil] at hread
    rw [printIndex, hread, Option.map_some, Option.toList_some]
    simp [countIndex, Cursor.touch, needed, Index.arg]

end Reading

namespace Read

/-- How many arguments count as named where a directive without a verb ends. -/
theorem named_stub (d : Stub) (cursor : Cursor) :
    let width := (Reading.start cursor d.body).readIndex.countIndex.readWidth
    width.2.readPrecision.2.readLastIndex.cursor.named =
      max cursor.named (needed (d.stars cursor.next ++ d.counted?.toList)) := by
  dsimp only
  rw [Reading.named_readLastIndex, needed_append, ← Nat.max_assoc]
  by_cases h : d.width = .absent ∧ d.precision = .absent
  · have hearly := d.isEarly_iff.mpr (.inl h)
    have hstars : d.stars cursor.next = [] := by
      rw [Stub.stars, h.1, h.2]
      rfl
    rw [Reading.readMeasures_index_end cursor h, Reading.named_readIndex_end, hstars,
      Stub.counted?, if_pos hearly]
    simp [needed]
  -- A width or a precision shields the last index, unless only a point stands before it.
  rw [Reading.readWidth_stub cursor h]
  dsimp only
  by_cases hp : d.precision = .point
  · have hearly := d.isEarly_iff.mpr (.inr hp)
    rw [hp, Reading.readPrecision_point_end, Reading.named_readIndex_end, behind_named,
      Stub.counted?, if_pos hearly, Stub.stars, hp]
    simp [Precision.measure, argument?]
  · have hearly : ¬ d.isEarly = true := fun he => (d.isEarly_iff.mp he).elim h hp
    rw [Reading.readPrecision_print _ hp, behind_next, Stub.counted?, if_neg hearly, Stub.stars,
      needed_append]
    simp only [Reading.start, behind_named, Nat.max_assoc]
    simp [needed]

theorem directive_stub (d : Stub) (cursor : Cursor) :
    ∃ cursor', directive cursor (d.marks.map Mark.char ++ d.body) =
        ⟨.literal noVerb, cursor', []⟩ ∧
      cursor'.named = max cursor.named (needed (d.stars cursor.next ++ d.counted?.toList)) := by
  refine ⟨_, ?_, named_stub d cursor⟩
  rw [directive_of_unmarked d.marks cursor d.body_unmarked]
  exact Reading.readVerb_end (rest_stub d cursor) _ _ _

end Read

/-! ## Templates and renderings -/

namespace Template

theorem required_compile (items : List Item) :
    (compile (String.ofList (print items))).required = (behindAll {} items).named := by
  rw [compile_print, behindAll_named, Nat.zero_max]
  rfl

/-- The indexes of stars always count. The last index of a directive without a verb counts where it
stands right behind the marks or a point, and else it has to be among the arguments that are
needed without it. -/
theorem indexes_counted_iff (items : List Item) (d : Stub) :
    let t := compile (String.ofList (print items ++ d.print))
    let others := max (compile (String.ofList (print items))).required
      (needed (d.stars (behindAll {} items).next))
    ((∀ m ∈ d.indexes, m.value ≤ t.required) ↔
        d.isEarly = true ∨ ∀ m ∈ d.index, m.value ≤ others) ∧
      t.required = max others (needed d.counted?.toList) ∧
      ∀ args, t.render args =
        String.join ((pieces 0 items).map (Piece.shown args)) ++ noVerb ++
          surplusText (args.drop t.required) := by
  intro t others
  obtain ⟨cursor, hread, hnamed⟩ := Read.directive_stub d (behindAll {} items)
  have ht : t = ofPieces (pieces 0 items ++ [.literal noVerb]) cursor.named :=
    compile_noVerb items hread
  have hrequired : t.required = max others (needed d.counted?.toList) := by
    rw [needed_append, ← Nat.max_assoc, ← required_compile] at hnamed
    rw [ht]
    exact hnamed
  refine ⟨?_, hrequired, ?_⟩
  · rw [hrequired]
    exact d.indexes_needed_iff (Nat.le_max_right _ _)
  · intro args
    rw [ht, render_ofPieces, List.map_append, String.join_append]
    simp [Piece.shown, String.join_cons]
    rfl

/-- An index behind a width that is a number is lost when the verb is missing. -/
theorem not_all_indexes_counted :
    ¬ ∀ (items : List Item) (d : Stub), ∀ m ∈ d.indexes,
      m.value ≤ (compile (String.ofList (print items ++ d.print))).required := by
  intro h
  let three : Index := ⟨⟨['3'], 3, rfl, by decide⟩, by decide⟩
  let d : Stub := ⟨[], .fixed ⟨['5'], 5, rfl, by decide⟩ (by decide), .absent, some three⟩
  have hle := h [] d three (by simp [Stub.indexes, d])
  exact absurd hle (by decide +kernel)

end Template

end PercentFormat
