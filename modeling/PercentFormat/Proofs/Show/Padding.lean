import PercentFormat.Proofs.Output.Filling
import PercentFormat.Show.Quoted

/-!
# Padded text

What padding, cutting and spelling add to a buffer.
-/

namespace PercentFormat.Show

/-- Fill characters. -/
def filler (flags : Flags) (n : Nat) : String :=
  String.ofList (List.replicate n (if flags.zero then '0' else ' '))

@[simp] theorem filler_zero (flags : Flags) : filler flags 0 = "" := rfl

theorem added_padding (flags : Flags) (n : Nat) : (padding flags n).added = filler flags n := by
  have hchar : asciiOrReplacement (fillByte flags) = if flags.zero then '0' else ' ' := by
    cases h : flags.zero <;> simp only [fillByte, h] <;> decide
  rw [padding, Edit.added, hchar, filler]

theorem allAdded_pad (flags : Flags) (width : Option Nat) (size : Nat) (body : List Edit) :
    Edit.allAdded (pad flags width size body) =
      if flags.minus then Edit.allAdded body ++ filler flags (width.getD 0 - size)
      else filler flags (width.getD 0 - size) ++ Edit.allAdded body := by
  unfold pad
  split
  · rw [Edit.allAdded_append, Edit.allAdded_cons, Edit.allAdded_nil, added_padding,
      String.append_empty]
  · rw [Edit.allAdded_cons, added_padding]

theorem allAdded_pad_none (flags : Flags) (size : Nat) (body : List Edit) :
    Edit.allAdded (pad flags none size body) = Edit.allAdded body := by
  rw [allAdded_pad, Option.getD_none, Nat.zero_sub, filler_zero, String.append_empty,
    String.empty_append, ite_self]

theorem allAdded_spelled (size : Nat) (cs : List Char) :
    Edit.allAdded (spelled size cs) = String.ofList cs := by
  rw [spelled, Edit.allAdded_cons, Edit.added, String.empty_append]
  induction cs with
  | nil => rfl
  | cons c cs ih =>
    rw [List.map_cons, Edit.allAdded_cons, ih, Edit.added, String.singleton_eq_ofList,
      ← String.ofList_append, List.singleton_append]

theorem cut_eq (precision : Option Nat) (s : String) :
    cut precision s = String.ofList (s.toList.take (precision.getD s.length)) := by
  cases precision with
  | none =>
    rw [cut, Option.getD_none, List.take_of_length_le (Nat.le_of_eq s.length_toList),
      String.ofList_toList]
  | some p => rfl

end PercentFormat.Show
