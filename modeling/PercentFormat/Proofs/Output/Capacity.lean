import PercentFormat.Output.Lending

/-!
# Capacity of a buffer

What is written to a buffer never takes room from it, and no buffer has less than a fresh one.
-/

namespace PercentFormat.Buffer

theorem le_roomFor (b : Buffer) (n : Nat) : b.capacity ≤ b.roomFor n := by
  unfold roomFor
  split
  · exact Nat.le_refl _
  · exact Nat.le_trans (Nat.le_mul_of_pos_left _ Nat.two_pos) (Nat.le_max_right _ _)

theorem le_capacity_reserve (b : Buffer) (n : Nat) : b.capacity ≤ (b.reserve n).capacity :=
  b.le_roomFor n

theorem le_capacity_push (b : Buffer) (bytes : ByteArray) : b.capacity ≤ (b.push bytes).capacity :=
  b.le_roomFor bytes.size

theorem le_capacity_foldl_append (b : Buffer) (ss : List String) :
    b.capacity ≤ (ss.foldl append b).capacity := by
  induction ss generalizing b with
  | nil => exact Nat.le_refl _
  | cons s ss ih => exact Nat.le_trans (b.le_capacity_push s.toUTF8) (ih (b.append s))

theorem le_capacity_apply (b : Buffer) (e : Edit) : b.capacity ≤ (b.apply e).capacity := by
  cases e with
  | reserve n => exact b.le_capacity_reserve n
  | text s => exact b.le_capacity_push _
  | char c => exact b.le_capacity_push _
  | byte byte => exact b.le_capacity_push _
  | raw bytes => exact b.le_capacity_foldl_append _
  | fill byte n =>
    rw [apply]
    split
    · exact b.le_capacity_push _
    · exact Nat.le_trans (b.le_capacity_reserve _) (le_capacity_foldl_append _ _)

theorem le_capacity_applyAll (b : Buffer) (es : List Edit) :
    b.capacity ≤ (b.applyAll es).capacity := by
  induction es generalizing b with
  | nil => exact Nat.le_refl _
  | cons e es ih => exact Nat.le_trans (b.le_capacity_apply e) (ih (b.apply e))

theorem size_le_copyCapacity (n : Nat) : n ≤ copyCapacity n := by
  unfold copyCapacity
  split
  · assumption
  · have hlog := Nat.lt_log2_self (n := n - 1)
    rw [Nat.one_shiftLeft]
    omega

theorem default_le_copyCapacity (n : Nat) : defaultCapacity ≤ copyCapacity n := by
  by_cases h : n ≤ defaultCapacity
  · exact Nat.le_of_eq (if_pos h).symm
  · exact Nat.le_trans (Nat.le_of_not_le h) (size_le_copyCapacity n)

/-! ## The least capacity -/

def Roomy (b : Buffer) : Prop := defaultCapacity ≤ b.capacity

theorem roomy_empty : Roomy .empty := Nat.le_refl _

theorem Roomy.applyAll {b : Buffer} (h : b.Roomy) (es : List Edit) : (b.applyAll es).Roomy :=
  Nat.le_trans h (b.le_capacity_applyAll es)

theorem Roomy.step {b : Buffer} (h : b.Roomy) (s : Step) : (b.step s).Roomy := by
  cases s with
  | edit e => exact Nat.le_trans h (b.le_capacity_apply e)
  | clear => exact h
  | copy => exact default_le_copyCapacity b.size
  | render t args => exact h.applyAll (t.edits args)

theorem Roomy.run {b : Buffer} (h : b.Roomy) (steps : List Step) : (b.run steps).Roomy := by
  induction steps generalizing b with
  | nil => exact h
  | cons s steps ih => exact ih (h.step s)

end PercentFormat.Buffer
