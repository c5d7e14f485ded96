/-!
# Lists as maps

What is found under a key after an entry was added or replaced.
-/

namespace PercentFormat

variable {κ α : Type} [BEq κ] [LawfulBEq κ] [DecidableEq κ]

theorem lookup_entry (f k : κ) (v : α) (es : List (κ × α)) :
    ((k, v) :: es).lookup f = if f = k then some v else es.lookup f := by
  rw [List.lookup_cons]
  by_cases h : f = k
  · simp [h]
  · rw [beq_eq_false_iff_ne.mpr h, if_neg h]

theorem lookup_replace (es : List (κ × α)) (k : κ) (n : α) (f : κ) :
    (es.map fun e => if e.1 = k then (k, n) else e).lookup f =
      if f = k then (es.lookup f).map fun _ => n else es.lookup f := by
  induction es with
  | nil => simp
  | cons e es ih =>
    obtain ⟨l, m⟩ := e
    rw [List.map_cons]
    by_cases hl : l = k
    · rw [if_pos hl, lookup_entry, lookup_entry, ih, hl]
      by_cases hf : f = k
      · simp [hf]
      · simp [hf]
    · rw [if_neg hl, lookup_entry, lookup_entry, ih]
      by_cases hf : f = l
      · simp [hf, hl]
      · simp [hf]

end PercentFormat
