import PercentFormat.Caching.Cache
import PercentFormat.Caching.Counters
import PercentFormat.Proofs.Associations

/-!
# Entries of caches and counters

A cache is seen through `get?`, the counters through `count?`. Each operation is described by what
it does to these.
-/

namespace PercentFormat

namespace Cache

variable {α : Type}

@[simp] theorem get?_empty (f : String) : ({} : Cache α).get? f = none := rfl

@[simp] theorem get?_clear (c : Cache α) (f : String) : c.clear.get? f = none := rfl

/-- An entry that is there stays as it is. -/
theorem get?_insert (c : Cache α) (k : String) (v : α) (f : String) :
    (c.insert k v).2.get? f = if f = k then some ((c.get? k).getD v) else c.get? f := by
  unfold insert
  split
  · next w h =>
    split
    · next hf => rw [hf, h, Option.getD_some]
    · rfl
  · next h =>
    simp only [get?] at h ⊢
    rw [List.lookup_append, lookup_entry, List.lookup_nil, h]
    by_cases hf : f = k
    · simp [hf, h]
    · simp [hf]

theorem insert_fst (c : Cache α) (k : String) (v : α) :
    (c.insert k v).1 = (c.get? k).isNone := by
  unfold insert
  split
  · next w h => rw [h]; rfl
  · next h => rw [h]; rfl

theorem size_insert (c : Cache α) (k : String) (v : α) :
    (c.insert k v).2.size = c.size + if (c.get? k).isNone then 1 else 0 := by
  unfold insert
  split
  · next w h => simp [h]
  · next h => simp [h, size]

end Cache

namespace Counters

def count? (c : Counters) (f : String) : Option UInt64 := c.entries.lookup f

@[simp] theorem count?_empty (f : String) : ({} : Counters).count? f = none := rfl

@[simp] theorem count?_clear (c : Counters) (f : String) : c.clear.count? f = none := rfl

theorem count?_bump (c : Counters) (k f : String) :
    (c.bump k).2.count? f =
      if f = k then some (((c.count? k).map succ).getD 1) else c.count? f := by
  unfold bump count?
  split
  · next n h =>
    rw [lookup_replace]
    split
    · next hf => rw [hf, h]; rfl
    · rfl
  · next h =>
    rw [List.lookup_append, lookup_entry, List.lookup_nil, h]
    by_cases hf : f = k
    · simp [hf, h]
    · simp [hf]

theorem bump_fst (c : Counters) (k : String) :
    (c.bump k).1 = ((c.count? k).map succ).getD 1 := by
  unfold bump count?
  split
  · next n h => rw [h]; rfl
  · next h => rw [h]; rfl

theorem count?_erase (c : Counters) (k f : String) :
    (c.erase k).count? f = if f = k then none else c.count? f := by
  simp only [erase, count?]
  induction c.entries with
  | nil => simp
  | cons e es ih =>
    obtain ⟨l, m⟩ := e
    by_cases hl : l = k
    · rw [List.filter_cons_of_neg (by simpa using hl), ih, lookup_entry, hl]
      by_cases hf : f = k
      · simp [hf]
      · simp [hf]
    · rw [List.filter_cons_of_pos (by simpa using hl), lookup_entry, lookup_entry, ih]
      by_cases hf : f = l
      · simp [hf, hl]
      · simp [hf]

end Counters

end PercentFormat
