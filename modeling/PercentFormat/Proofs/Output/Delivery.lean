import PercentFormat.Output.Pool

/-!
# Delivery

A sink that accepts something of every offer in the end has the whole text, in order, however it
splits it and however often it is interrupted.
-/

namespace PercentFormat

/-- A reply that takes some of so many bytes, or asks to be called again. -/
def Reply.Accepts (size : Nat) : Reply → Prop
  | .took n => 0 < n ∧ n ≤ size
  | .interrupted => True
  | .failed _ => False

namespace Sink

def Accepting (s : Sink) : Prop :=
  ∀ calls accepted offered, offered.size ≠ 0 →
    (s.reply calls accepted offered).Accepts offered.size

theorem accepting_everything : everything.Accepting := by
  intro calls accepted offered hsize
  exact ⟨Nat.pos_of_ne_zero hsize, Nat.le_refl _⟩

theorem accepting_atMost {limit : Nat} (h : 0 < limit) : (atMost limit).Accepting := by
  intro calls accepted offered hsize
  exact ⟨Nat.lt_min.mpr ⟨h, Nat.pos_of_ne_zero hsize⟩, Nat.min_le_right _ _⟩

theorem accepting_interruptedAtFirst (times : Nat) : (interruptedAtFirst times).Accepting := by
  intro calls accepted offered hsize
  simp only [interruptedAtFirst]
  split
  · trivial
  · exact ⟨Nat.pos_of_ne_zero hsize, Nat.le_refl _⟩

/-! ## Calls -/

variable {s : Sink} {calls n : Nat} {accepted offered : ByteArray}

theorem deliver_empty (h : offered.size = 0) :
    s.deliver calls accepted offered = ⟨calls, accepted, none⟩ := by
  rw [deliver, if_pos h]

theorem deliver_took (h : offered.size ≠ 0) (hr : s.reply calls accepted offered = .took (n + 1)) :
    s.deliver calls accepted offered =
      s.deliver (calls + 1) (accepted ++ offered.extract 0 (n + 1))
        (offered.extract (n + 1) offered.size) := by
  rw [deliver, if_neg h]
  split <;> simp_all

theorem deliver_interrupted (h : offered.size ≠ 0)
    (hr : s.reply calls accepted offered = .interrupted) :
    s.deliver calls accepted offered = s.deliver (calls + 1) accepted offered := by
  rw [deliver, if_neg h]
  split <;> simp_all

/-- A call moves bytes from the offer to the accepted ones, so both together stay the same. -/
theorem Accepting.deliver (h : s.Accepting) (calls : Nat) (accepted offered : ByteArray) :
    (s.deliver calls accepted offered).accepted = accepted ++ offered ∧
      (s.deliver calls accepted offered).fault = none := by
  induction calls, accepted, offered using Sink.deliver.induct s with
  | case1 calls accepted offered hempty =>
    rw [deliver_empty hempty, ByteArray.size_eq_zero_iff.mp hempty]
    exact ⟨ByteArray.append_empty.symm, rfl⟩
  | case2 calls accepted offered hsize hreply =>
    have hacc := h calls accepted offered hsize
    rw [hreply] at hacc
    exact absurd hacc.1 (Nat.lt_irrefl 0)
  | case3 calls accepted offered hsize n hreply ih =>
    have hacc := h calls accepted offered hsize
    rw [hreply] at hacc
    have hsplit : accepted ++ offered.extract 0 (n + 1) ++ offered.extract (n + 1) offered.size =
        accepted ++ offered := by
      rw [ByteArray.append_assoc, ByteArray.extract_append_extract, Nat.zero_min,
        Nat.max_eq_right hacc.2, ByteArray.extract_zero_size]
    rw [deliver_took hsize hreply, ← hsplit]
    exact ih
  | case4 calls accepted offered hsize hreply ih =>
    rw [deliver_interrupted hsize hreply]
    exact ih
  | case5 calls accepted offered hsize fault hreply =>
    have hacc := h calls accepted offered hsize
    rw [hreply] at hacc
    exact hacc.elim

theorem Accepting.writeAll (h : s.Accepting) (bytes : ByteArray) :
    (s.writeAll bytes).accepted = bytes ∧ (s.writeAll bytes).fault = none := by
  have hd := h.deliver 0 ByteArray.empty bytes
  rwa [ByteArray.empty_append] at hd

end Sink

end PercentFormat
