import PercentFormat.Proofs.Template.Directives
import PercentFormat.Proofs.Template.Reading

/-!
# Directives read in full

A letter or a percent sign right behind the flags ends a directive at once. Reading such a
directive part by part ends at the same place with the same piece and the same cursor, so a
compiler without these shortcuts gives the same template for every format.
-/

namespace PercentFormat

namespace Read

/-- Reads a directive part by part, whatever stands behind its flags. -/
def inFull (cursor : Cursor) (cs : List Char) : Read :=
  let (flags, rest) := Flags.empty.readAll cs
  general flags cursor rest

theorem length_inFull_le (cursor : Cursor) (cs : List Char) :
    (inFull cursor cs).rest.length ≤ cs.length :=
  Nat.le_trans (length_general_le _ _ _) (Flags.length_readAll_le _ _)

variable {flags : Flags} {cursor : Cursor} {c : Char} {rest : List Char}

/-- In front of a character that begins no part, all parts but the verb are missing. -/
theorem general_bare (hd : c.isDigit = false) (hc : c ∉ ['[', '*', '.']) :
    general flags cursor (c :: rest) =
      (Reading.start cursor (c :: rest)).readVerb flags none none := by
  simp only [List.mem_cons, List.not_mem_nil, or_false, not_or] at hc
  obtain ⟨hbracket, hstar, hpoint⟩ := hc
  have hopen : Grammar.Unbracketed (c :: rest) := by simpa [Grammar.Unbracketed] using hbracket
  have hindex := Reading.readIndex_none cursor hopen
  have hcount : (Reading.start cursor (c :: rest)).countIndex =
      Reading.start cursor (c :: rest) := rfl
  have hwidth := Reading.readWidth_none (r := Reading.start cursor (c :: rest))
    (by simpa [Grammar.Undigited, Reading.start] using hd) (by simpa [Reading.start] using hstar)
  have hprecision := Reading.readPrecision_none (r := Reading.start cursor (c :: rest))
    (by simpa [Reading.start] using hpoint)
  have hlast : (Reading.start cursor (c :: rest)).readLastIndex =
      (Reading.start cursor (c :: rest)).readIndex := rfl
  rw [general]
  simp only [hindex, hcount, hwidth, hprecision, hlast]

theorem general_percent : general flags cursor ('%' :: rest) = ⟨.literal "%", cursor, rest⟩ := by
  rw [general_bare (by decide) (by decide)]
  rfl

theorem general_letter (hc : c.isAlpha = true) :
    general flags cursor (c :: rest) = plain flags cursor c rest := by
  have hd : c.isDigit = false := by
    rw [← Bool.not_eq_true]
    intro hd
    simp [Unicode.not_isAlpha_of_isDigit hd] at hc
  have hparts : c ∉ ['[', '*', '.'] := by
    intro hm
    simp only [List.mem_cons, List.not_mem_nil, or_false] at hm
    rcases hm with rfl | rfl | rfl <;> simp at hc
  have hpercent : c ≠ '%' := by
    rintro rfl
    simp at hc
  rw [general_bare hd hparts]
  simp [Reading.readVerb, Reading.start, Reading.countIndex, plain, hpercent,
    Unicode.isUppercase_of_isAlpha hc]

/-- The shortcuts change nothing about a directive. -/
theorem directive_eq_inFull (cursor : Cursor) (cs : List Char) :
    directive cursor cs = inFull cursor cs := by
  unfold directive inFull
  split
  · next flags rest h =>
    simp only [h]
    exact general_percent.symm
  · next flags c rest _ h =>
    simp only [h]
    split
    · next ha => exact (general_letter ha).symm
    · rfl
  · next flags h => simp only [h]

end Read

namespace DirectiveReader

def full : DirectiveReader := ⟨Read.inFull, Read.length_inFull_le⟩

theorem standard_eq_full : standard = full := by
  have h : Read.directive = Read.inFull := by
    funext cursor cs
    exact Read.directive_eq_inFull cursor cs
  simp only [standard, full, h]

end DirectiveReader

/-- Compiling without shortcuts gives the same template, whether the format is right or wrong. -/
theorem Template.compile_eq_full (format : String) :
    Template.compile format = DirectiveReader.full.compile format :=
  congrArg (DirectiveReader.compile · format) DirectiveReader.standard_eq_full

end PercentFormat
