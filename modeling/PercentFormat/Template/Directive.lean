import PercentFormat.Template.Basic
import PercentFormat.Template.Numeral

/-! # Reading a directive

A directive is `% flags* [n]? (width | *)? (. [n]? (digits | *))? [n]? verb`. Reading one yields a
single piece, a directive or a literal that says what is wrong, and moves the argument cursor. -/

namespace PercentFormat

/-- The argument cursor: the index that the next directive takes, and how many arguments count as
named so far. -/
structure Cursor where
  next : Nat := 0
  named : Nat := 0
  deriving DecidableEq, Repr

namespace Cursor

/-- Counts the next argument as named. -/
def touch (c : Cursor) : Cursor := { c with named := max c.named (c.next + 1) }

/-- Takes the next argument. -/
def take (c : Cursor) : Cursor := { c.touch with next := c.next + 1 }

end Cursor

/-! ## Diagnostics -/

def noVerb : String := "%!(NOVERB)"

def badIndex (letter : Char) : String := "%!" ++ String.singleton letter ++ "(BADINDEX)"

/-! ## Parts -/

/-- How far the reading of one directive has come. `indexed` says that the part just read was an
argument index, `proper` that nothing was wrong with the indexes so far. -/
structure Reading where
  cursor : Cursor
  indexed : Bool
  proper : Bool
  rest : List Char
  deriving DecidableEq, Repr

structure Read where
  piece : Piece
  cursor : Cursor
  rest : List Char

namespace Reading

def start (cursor : Cursor) (cs : List Char) : Reading := ⟨cursor, false, true, cs⟩

/-- Reads an argument index, if there is one, and points the cursor at it. -/
def readIndex (r : Reading) : Reading :=
  match Bracket.read r.rest with
  | .absent => { r with indexed := false }
  | .unusable rest => { r with indexed := true, proper := false, rest := rest }
  | .index n rest => { r with cursor := { r.cursor with next := n }, indexed := true, rest := rest }

/-- Counts an argument as named when an index was read for it. -/
def countIndex (r : Reading) : Reading :=
  if r.indexed then { r with cursor := r.cursor.touch } else r

/-- Takes the argument under the cursor for a star. -/
def takeStar (r : Reading) (rest : List Char) : Option Measure × Reading :=
  (some (.indirect r.cursor.next),
    { r with cursor := r.cursor.take, indexed := false, rest := rest })

/-- Reads a width. A number is wrong behind an argument index. -/
def readWidth (r : Reading) : Option Measure × Reading :=
  match r.rest with
  | '*' :: rest => r.takeStar rest
  | cs =>
    match Numeral.read cs with
    | (some n, rest) => (some (.fixed n), { r with proper := r.proper && !r.indexed, rest := rest })
    | (none, rest) => (none, { r with rest := rest })

/-- Reads a precision. The point is wrong behind an argument index, and a point alone means zero. -/
def readPrecision (r : Reading) : Option Measure × Reading :=
  match r.rest with
  | '.' :: cs =>
    let r := { r with proper := r.proper && !r.indexed, rest := cs }.readIndex.countIndex
    match r.rest with
    | '*' :: rest => r.takeStar rest
    | cs => (some (.fixed ((Numeral.read cs).1.getD 0)), { r with rest := (Numeral.read cs).2 })
  | _ => (none, r)

/-- Reads the verb's own argument index, unless an index stands right before it already. -/
def readLastIndex (r : Reading) : Reading := if r.indexed then r else r.readIndex

def readVerb (r : Reading) (flags : Flags) (width precision : Option Measure) : Read :=
  match r.rest with
  | [] => ⟨.literal noVerb, r.cursor, []⟩
  | c :: rest =>
    let cursor := r.countIndex.cursor
    if c = '%' then ⟨.literal "%", cursor, rest⟩
    else if r.proper then
      let flags := if Unicode.isUppercase c then { flags with upper := true } else flags
      ⟨.directive c ⟨.ofChar c, flags, width, precision, cursor.next⟩, cursor.take, rest⟩
    else ⟨.literal (badIndex c), cursor, rest⟩

end Reading

/-! ## Whole directives -/

namespace Read

/-- Reads everything behind the flags: index, width, precision, index, verb. -/
def general (flags : Flags) (cursor : Cursor) (cs : List Char) : Read :=
  let width := (Reading.start cursor cs).readIndex.countIndex.readWidth
  let precision := width.2.readPrecision
  precision.2.readLastIndex.readVerb flags width.1 precision.1

/-- A verb that is a plain letter right behind the flags. -/
def plain (flags : Flags) (cursor : Cursor) (c : Char) (rest : List Char) : Read :=
  let flags := if c.isUpper then { flags with upper := true } else flags
  ⟨.directive c ⟨.ofChar c, flags, none, none, cursor.next⟩, cursor.take, rest⟩

/-- Reads a directive, given the text behind its percent sign. A second percent sign or a plain
letter right behind the flags ends it at once. -/
def directive (cursor : Cursor) (cs : List Char) : Read :=
  match Flags.empty.readAll cs with
  | (_, '%' :: rest) => ⟨.literal "%", cursor, rest⟩
  | (flags, c :: rest) =>
    if c.isAlpha then plain flags cursor c rest else general flags cursor (c :: rest)
  | (flags, []) => general flags cursor []

end Read

/-! ## Reading only consumes -/

theorem Reading.length_readIndex_le (r : Reading) : r.readIndex.rest.length ≤ r.rest.length := by
  unfold readIndex
  split
  · exact Nat.le_refl _
  · rename_i h
    exact Nat.le_of_lt (Bracket.length_rest_lt (by simp [h, Bracket.rest?]))
  · rename_i h
    exact Nat.le_of_lt (Bracket.length_rest_lt (by simp [h, Bracket.rest?]))

theorem Reading.rest_countIndex (r : Reading) : r.countIndex.rest = r.rest := by
  unfold countIndex
  split <;> rfl

theorem Reading.length_readWidth_le (r : Reading) :
    r.readWidth.2.rest.length ≤ r.rest.length := by
  unfold readWidth
  split
  · rename_i h
    simp [takeStar, h]
  · have hn := Numeral.length_read_le r.rest
    split <;> rename_i h <;> simpa [h] using hn

theorem Reading.length_readPrecision_le (r : Reading) :
    r.readPrecision.2.rest.length ≤ r.rest.length := by
  unfold readPrecision
  split
  · rename_i cs h
    have hi := length_readIndex_le { r with proper := r.proper && !r.indexed, rest := cs }
    rw [← rest_countIndex] at hi
    simp only [h, List.length_cons]
    split
    · rename_i hr
      rw [hr] at hi
      simp only [takeStar, List.length_cons] at hi ⊢
      omega
    · exact Nat.le_succ_of_le (Nat.le_trans (Numeral.length_read_le _) hi)
  · exact Nat.le_refl _

theorem Reading.length_readVerb_le (r : Reading) (flags : Flags) (w p : Option Measure) :
    (r.readVerb flags w p).rest.length ≤ r.rest.length := by
  unfold readVerb
  split
  · simp
  · rename_i h
    simp only [h]
    split
    · simp
    · split <;> simp

theorem Reading.length_readLastIndex_le (r : Reading) :
    r.readLastIndex.rest.length ≤ r.rest.length := by
  unfold readLastIndex
  split
  · exact Nat.le_refl _
  · exact length_readIndex_le r

theorem Read.length_general_le (flags : Flags) (cursor : Cursor) (cs : List Char) :
    (general flags cursor cs).rest.length ≤ cs.length := by
  have hi := Reading.length_readIndex_le (Reading.start cursor cs)
  rw [← Reading.rest_countIndex] at hi
  exact Nat.le_trans (Reading.length_readVerb_le _ _ _ _)
    (Nat.le_trans (Reading.length_readLastIndex_le _)
      (Nat.le_trans (Reading.length_readPrecision_le _)
        (Nat.le_trans (Reading.length_readWidth_le _) hi)))

theorem Read.length_directive_le (cursor : Cursor) (cs : List Char) :
    (directive cursor cs).rest.length ≤ cs.length := by
  have hf := Flags.length_readAll_le Flags.empty cs
  unfold directive
  split
  · rename_i h
    simp only [h, List.length_cons] at hf
    exact Nat.le_of_succ_le hf
  · rename_i h
    simp only [h, List.length_cons] at hf
    split
    · exact Nat.le_of_succ_le hf
    · exact Nat.le_trans (length_general_le _ _ _) hf
  · exact Nat.le_trans (length_general_le _ _ _) (Nat.zero_le _)

end PercentFormat
