import Mathlib.Algebra.Group.Nat.Defs
import Mathlib.Data.List.MinMax
import PercentFormat.Proofs.Output.Capacity

/-!
# Growth of a buffer

Whatever is written, a buffer asks for the room before it uses it. Its capacity at least doubles
whenever it changes, and stays below twice the largest size that was asked for.
-/

namespace PercentFormat

namespace Buffer

/-! ## Moves -/

/-- What writers do to a buffer: they ask for room, add bytes in the room there is, or start
over. -/
inductive Move
  | request (additional : Nat)
  | extend (bytes : ByteArray)
  | clear

def move (b : Buffer) : Move → Buffer
  | .request n => b.reserve n
  | .extend bytes => ⟨b.bytes ++ bytes, b.capacity⟩
  | .clear => b.clear

def play (b : Buffer) (ms : List Move) : Buffer := ms.foldl move b

/-- Nothing is asked for to add nothing. -/
def Move.adding (bytes : ByteArray) : List Move :=
  if bytes.size = 0 then [] else [.request bytes.size, .extend bytes]

def Move.writing (s : String) : List Move := adding s.toUTF8

end Buffer

open Buffer

/-- The moves of an edit, each portion of raw bytes and each replacement being added by itself. -/
def Edit.moves : Edit → List Move
  | .reserve n => [.request n]
  | .text s => Move.writing s
  | .char c => Move.writing (String.singleton c)
  | .byte b => Move.writing (String.singleton (asciiOrReplacement b))
  | .raw bytes => (Utf8.portions [] (Utf8.segments bytes.data.toList)).flatMap Move.writing
  | .fill b n =>
    if n = 0 then []
    else if b < 0x80 then Move.adding (List.replicate n b).toByteArray
    else
      .request (3 * n) ::
        (List.replicate n (String.singleton Utf8.replacement)).flatMap Move.writing

namespace Buffer

/-- The moves of a step. A copy is another buffer and moves nothing in this one. -/
def Step.moves : Step → List Move
  | .edit e => e.moves
  | .clear => [.clear]
  | .copy => []
  | .render t args => (t.edits args).flatMap Edit.moves

variable {b : Buffer} {m : Move} {ms ns : List Move}

theorem play_append (b : Buffer) (ms ns : List Move) : b.play (ms ++ ns) = (b.play ms).play ns :=
  List.foldl_append

/-! ## Asking for room -/

/-- Every addition stays within what was asked for before it, `granted` being the largest size that
was asked for so far. -/
def Asked (b : Buffer) (granted : Nat) : List Move → Prop
  | [] => True
  | .request n :: ms => Asked (b.move (.request n)) (max granted (b.size + n)) ms
  | .extend bytes :: ms =>
    b.size + bytes.size ≤ granted ∧ Asked (b.move (.extend bytes)) granted ms
  | .clear :: ms => Asked (b.move .clear) granted ms

theorem Asked.append {granted : Nat} (h : b.Asked granted ms)
    (h' : ∀ granted, (b.play ms).Asked granted ns) : b.Asked granted (ms ++ ns) := by
  induction ms generalizing b granted with
  | nil => exact h' granted
  | cons m ms ih =>
    cases m with
    | request n => exact ih h h'
    | extend bytes => exact ⟨h.1, ih h.2 h'⟩
    | clear => exact ih h h'

theorem asked_flatMap {α : Type} {f : α → List Move} {xs : List α}
    (h : ∀ x, ∀ b : Buffer, ∀ granted, b.Asked granted (f x)) (b : Buffer) (granted : Nat) :
    b.Asked granted (xs.flatMap f) := by
  induction xs generalizing b granted with
  | nil => trivial
  | cons x xs ih =>
    rw [List.flatMap_cons]
    exact (h x b granted).append fun granted => ih _ granted

theorem asked_adding (bytes : ByteArray) (b : Buffer) (granted : Nat) :
    b.Asked granted (Move.adding bytes) := by
  unfold Move.adding
  split
  · trivial
  · exact ⟨Nat.le_max_right _ _, trivial⟩

theorem asked_writing (s : String) (b : Buffer) (granted : Nat) :
    b.Asked granted (Move.writing s) :=
  asked_adding s.toUTF8 b granted

theorem asked_edit (e : Edit) (b : Buffer) (granted : Nat) : b.Asked granted e.moves := by
  cases e with
  | reserve n => trivial
  | text s => exact asked_writing s b granted
  | char c => exact asked_writing _ b granted
  | byte byte => exact asked_writing _ b granted
  | raw bytes => exact asked_flatMap asked_writing b granted
  | fill byte n =>
    rw [Edit.moves]
    split
    · trivial
    split
    · exact asked_adding _ b granted
    · exact asked_flatMap asked_writing _ _

theorem asked_step (s : Step) (b : Buffer) (granted : Nat) : b.Asked granted s.moves := by
  cases s with
  | edit e => exact asked_edit e b granted
  | clear => trivial
  | copy => trivial
  | render t args => exact asked_flatMap asked_edit b granted

/-! ## Single moves -/

/-- How a move finds a buffer and what it does to the capacity. -/
structure Orderly (b : Buffer) (m : Move) : Prop where
  fits : b.size ≤ b.capacity
  least : defaultCapacity ≤ b.capacity
  kept : b.capacity ≤ (b.move m).capacity
  grown : (b.move m).capacity ≠ b.capacity →
    ∃ n, m = .request n ∧ b.capacity < b.size + n ∧ 2 * b.capacity ≤ (b.move m).capacity
  room : ∀ bytes, m = .extend bytes → b.size + bytes.size ≤ b.capacity

theorem le_capacity_move (b : Buffer) (m : Move) : b.capacity ≤ (b.move m).capacity := by
  cases m with
  | request n => exact b.le_capacity_reserve n
  | extend bytes => exact Nat.le_refl _
  | clear => exact Nat.le_refl _

theorem capacity_reserve_of_lt {n : Nat} (h : b.capacity < b.size + n) :
    (b.reserve n).capacity = max (b.size + n) (2 * b.capacity) :=
  if_neg (Nat.not_le.mpr h)

theorem capacity_reserve_of_le {n : Nat} (h : b.size + n ≤ b.capacity) :
    (b.reserve n).capacity = b.capacity :=
  if_pos h

theorem size_le_capacity_reserve (b : Buffer) (n : Nat) : b.size + n ≤ (b.reserve n).capacity := by
  by_cases hle : b.size + n ≤ b.capacity
  · rwa [capacity_reserve_of_le hle]
  · rw [capacity_reserve_of_lt (Nat.lt_of_not_le hle)]
    exact Nat.le_max_left _ _

/-- Only a request that exceeds the capacity changes it. -/
theorem exists_request_of_grown (h : (b.move m).capacity ≠ b.capacity) :
    ∃ n, m = .request n ∧ b.capacity < b.size + n ∧ 2 * b.capacity ≤ (b.move m).capacity := by
  cases m with
  | request n =>
    have hlt : b.capacity < b.size + n :=
      Nat.lt_of_not_le fun hle => h (capacity_reserve_of_le hle)
    refine ⟨n, rfl, hlt, ?_⟩
    rw [move, capacity_reserve_of_lt hlt]
    exact Nat.le_max_right _ _
  | extend bytes => exact absurd rfl h
  | clear => exact absurd rfl h

/-! ## Runs of moves -/

/-- What a run of moves keeps. -/
structure Granted (b : Buffer) (granted : Nat) : Prop where
  fits : b.size ≤ b.capacity
  least : defaultCapacity ≤ b.capacity
  granted_le : granted ≤ b.capacity

/-- The first move is in order, and so is what it leaves to the others. -/
theorem Asked.step {granted : Nat} (h : b.Asked granted (m :: ms)) (hb : b.Granted granted) :
    Orderly b m ∧ ∃ granted', (b.move m).Asked granted' ms ∧ (b.move m).Granted granted' := by
  have hkept := b.le_capacity_move m
  have hleast := Nat.le_trans hb.least hkept
  have horderly (hroom : ∀ bytes, m = .extend bytes → b.size + bytes.size ≤ b.capacity) :
      Orderly b m :=
    ⟨hb.fits, hb.least, hkept, exists_request_of_grown, hroom⟩
  cases m with
  | request n =>
    have hsize := b.size_le_capacity_reserve n
    refine ⟨horderly (by simp), _, h, ⟨Nat.le_trans hb.fits hkept, hleast, ?_⟩⟩
    exact Nat.max_le.mpr ⟨Nat.le_trans hb.granted_le hkept, hsize⟩
  | extend bytes =>
    have hroom : b.size + bytes.size ≤ b.capacity := Nat.le_trans h.1 hb.granted_le
    refine ⟨horderly ?_, granted, h.2, ⟨?_, hleast, hb.granted_le⟩⟩
    · intro bytes' hbytes
      obtain rfl := Move.extend.inj hbytes
      exact hroom
    · rw [move, size, ByteArray.size_append]
      exact hroom
  | clear => exact ⟨horderly (by simp), granted, h, ⟨Nat.zero_le _, hleast, hb.granted_le⟩⟩

theorem Asked.play {granted : Nat} (h : b.Asked granted ms) (hb : b.Granted granted) :
    ∃ granted', (b.play ms).Granted granted' := by
  induction ms generalizing b granted with
  | nil => exact ⟨granted, hb⟩
  | cons m ms ih =>
    obtain ⟨-, granted', h', hb'⟩ := h.step hb
    exact ih h' hb'

/-- Every move of a run is in order. -/
theorem Asked.orderly {granted : Nat} (h : b.Asked granted ms) (hb : b.Granted granted)
    {front back : List Move} (hms : ms = front ++ m :: back) : Orderly (b.play front) m := by
  induction front generalizing b granted ms with
  | nil =>
    subst hms
    exact (h.step hb).1
  | cons f front ih =>
    subst hms
    obtain ⟨-, granted', h', hb'⟩ := h.step hb
    exact ih h' hb' rfl

/-! ## Moves of writers -/

theorem reserve_zero (h : b.size ≤ b.capacity) : b.reserve 0 = b := by
  rw [reserve, roomFor, Nat.add_zero, if_pos h]

theorem push_eq_play (h : b.size ≤ b.capacity) (bytes : ByteArray) :
    b.push bytes = b.play (Move.adding bytes) := by
  unfold Move.adding
  split
  · next hzero =>
    have hempty : bytes = ByteArray.empty := ByteArray.size_eq_zero_iff.mp hzero
    subst hempty
    rw [push, ByteArray.append_empty]
    exact reserve_zero h
  · rfl

/-- What is written item by item is a run of the moves of all items. -/
theorem foldl_eq_play {α : Type} {f : Buffer → α → Buffer} {moves : α → List Move} {xs : List α}
    (hmoves : ∀ x ∈ xs, ∀ b : Buffer, b.Granted 0 → f b x = b.play (moves x))
    (hasked : ∀ x, ∀ b : Buffer, ∀ granted, b.Asked granted (moves x)) (hb : b.Granted 0) :
    xs.foldl f b = b.play (xs.flatMap moves) := by
  induction xs generalizing b with
  | nil => rfl
  | cons x xs ih =>
    have hx := hmoves x List.mem_cons_self b hb
    obtain ⟨granted, hnext⟩ := (hasked x b 0).play hb
    rw [← hx] at hnext
    rw [List.foldl_cons, List.flatMap_cons, play_append, ← hx]
    exact ih (fun y hy => hmoves y (List.mem_cons_of_mem x hy))
      ⟨hnext.fits, hnext.least, Nat.zero_le _⟩

theorem foldl_append_eq_play (hb : b.Granted 0) (ss : List String) :
    ss.foldl append b = b.play (ss.flatMap Move.writing) :=
  foldl_eq_play (fun s _ _ hb => push_eq_play hb.fits s.toUTF8) asked_writing hb

theorem apply_eq_play (hb : b.Granted 0) (e : Edit) : b.apply e = b.play e.moves := by
  cases e with
  | reserve n => rfl
  | text s => exact push_eq_play hb.fits _
  | char c => exact push_eq_play hb.fits _
  | byte byte => exact push_eq_play hb.fits _
  | raw bytes => exact foldl_append_eq_play hb _
  | fill byte n =>
    rw [apply, Edit.moves]
    by_cases hzero : n = 0
    · subst hzero
      rw [if_pos rfl]
      split
      · exact push_eq_play hb.fits _
      · exact reserve_zero hb.fits
    rw [if_neg hzero]
    split
    · exact push_eq_play hb.fits _
    · have hkept := b.le_capacity_reserve (3 * n)
      have hreserved : (b.reserve (3 * n)).Granted 0 :=
        ⟨Nat.le_trans hb.fits hkept, Nat.le_trans hb.least hkept, Nat.zero_le _⟩
      exact foldl_append_eq_play hreserved _

theorem step_eq_play (hb : b.Granted 0) {s : Step} (hs : s ≠ .copy) :
    b.step s = b.play s.moves := by
  cases s with
  | edit e => exact apply_eq_play hb e
  | clear => rfl
  | copy => exact absurd rfl hs
  | render t args => exact foldl_eq_play (fun e _ _ hb => apply_eq_play hb e) asked_edit hb

theorem run_eq_play (hb : b.Granted 0) {steps : List Step} (hsteps : .copy ∉ steps) :
    b.run steps = b.play (steps.flatMap Step.moves) :=
  foldl_eq_play (fun _ hs _ hb => step_eq_play hb fun he => hsteps (he ▸ hs)) asked_step hb

/-! ## Growth -/

/-- The size that a move asks for. -/
def requested? (b : Buffer) : Move → Option Nat
  | .request n => some (b.size + n)
  | _ => none

/-- All sizes that are asked for in a run of moves. -/
def requests (b : Buffer) : List Move → List Nat
  | [] => []
  | m :: ms => (b.requested? m).toList ++ (b.move m).requests ms

/-- How often the capacity changes in a run of moves. -/
def growths (b : Buffer) : List Move → Nat
  | [] => 0
  | m :: ms => (if (b.move m).capacity = b.capacity then 0 else 1) + (b.move m).growths ms

theorem mul_pow_growths_le (b : Buffer) (ms : List Move) :
    b.capacity * 2 ^ b.growths ms ≤ (b.play ms).capacity := by
  induction ms generalizing b with
  | nil => exact Nat.le_of_eq (Nat.mul_one _)
  | cons m ms ih =>
    refine Nat.le_trans ?_ (ih (b.move m))
    rw [growths]
    split
    · next hsame => exact Nat.le_of_eq (by rw [Nat.zero_add, hsame])
    · next hgrown =>
      obtain ⟨-, -, -, hdouble⟩ := exists_request_of_grown hgrown
      calc b.capacity * 2 ^ (1 + (b.move m).growths ms)
          = 2 * b.capacity * 2 ^ (b.move m).growths ms := by
            rw [Nat.pow_add, Nat.pow_one, ← Nat.mul_assoc, Nat.mul_comm b.capacity]
        _ ≤ (b.move m).capacity * 2 ^ (b.move m).growths ms := Nat.mul_le_mul_right _ hdouble

/-- A capacity that grew is below twice one of the sizes that were asked for. -/
theorem capacity_lt_request (b : Buffer) (ms : List Move) :
    (b.play ms).capacity = b.capacity ∨
      ∃ total ∈ b.requests ms, (b.play ms).capacity < 2 * total := by
  induction ms generalizing b with
  | nil => exact .inl rfl
  | cons m ms ih =>
    obtain hsame | ⟨total, htotal, hlt⟩ := ih (b.move m)
    · by_cases hgrown : (b.move m).capacity = b.capacity
      · exact .inl (hsame.trans hgrown)
      obtain ⟨n, rfl, hlarge, -⟩ := exists_request_of_grown hgrown
      refine .inr ⟨b.size + n, by simp [requests, requested?], ?_⟩
      have hcapacity : (b.play (.request n :: ms)).capacity = max (b.size + n) (2 * b.capacity) :=
        hsame.trans (capacity_reserve_of_lt hlarge)
      rw [hcapacity]
      omega
    · exact .inr ⟨total, List.mem_append_right _ htotal, hlt⟩

/-! ## Machine words -/

/-- The largest machine word. Sums and products that do not fit end there. -/
def wordMax : Nat := 2 ^ 64 - 1

/-- The capacity that makes room for `n` more bytes, computed with machine words. -/
def roomInWord (b : Buffer) (n : Nat) : Nat :=
  let total := min (b.size + n) wordMax
  if total ≤ b.capacity then b.capacity else max total (min (2 * b.capacity) wordMax)

def moveInWord (b : Buffer) : Move → Buffer
  | .request n => ⟨b.bytes, b.roomInWord n⟩
  | m => b.move m

theorem roomInWord_eq {n : Nat} (h : b.size + n < wordMax / 2) : b.roomInWord n = b.roomFor n := by
  have htotal : min (b.size + n) wordMax = b.size + n := Nat.min_eq_left (by omega)
  simp only [roomInWord, roomFor, htotal]
  split
  · rfl
  · rw [Nat.min_eq_left (by omega)]

/-- Requests below half of the largest word never leave the machine words. -/
theorem foldl_moveInWord (h : ∀ total ∈ b.requests ms, total < wordMax / 2) :
    ms.foldl moveInWord b = b.play ms := by
  induction ms generalizing b with
  | nil => rfl
  | cons m ms ih =>
    have hmove : b.moveInWord m = b.move m := by
      cases m with
      | request n =>
        rw [moveInWord, roomInWord_eq (h _ (by simp [requests, requested?]))]
        rfl
      | extend bytes => rfl
      | clear => rfl
    rw [List.foldl_cons, hmove]
    exact ih fun total htotal => h total (List.mem_append_right _ htotal)

/-! ## Whole runs -/

theorem granted_empty : Granted .empty 0 :=
  ⟨Nat.zero_le _, Nat.le_refl _, Nat.zero_le _⟩

/-- Steps on a fresh buffer are moves. Each move finds the contents within the capacity, which is no
less than at first, and adds only what fits. It never shrinks the capacity; when it changes it, it
is a request that exceeds it, and the capacity at least doubles. So `g` changes make for at least
`2 ^ g` times the first capacity, and a capacity that has changed is below twice the largest
request. With machine words it is the same, as long as the requests stay below half of the largest
word. Each edit by itself asks for all that it adds. -/
theorem capacity_run (steps : List Step) (hsteps : .copy ∉ steps) :
    let ms := steps.flatMap Step.moves
    let b := empty.run steps
    b = empty.play ms ∧
      ((∀ total ∈ empty.requests ms, total < wordMax / 2) → b = ms.foldl moveInWord empty) ∧
      (b.size ≤ b.capacity ∧ defaultCapacity ≤ b.capacity) ∧
      (∀ front m back, ms = front ++ m :: back → Orderly (empty.play front) m) ∧
      defaultCapacity * 2 ^ empty.growths ms ≤ b.capacity ∧
      (b.capacity = defaultCapacity ∨ b.capacity < 2 * (empty.requests ms).foldr max 0) ∧
      ∀ (e : Edit) (c : Buffer), c.Asked 0 e.moves := by
  intro ms b
  have hplay : b = empty.play ms := run_eq_play granted_empty hsteps
  have hasked : empty.Asked 0 ms := asked_flatMap asked_step empty 0
  obtain ⟨granted, hgranted⟩ := hasked.play granted_empty
  rw [← hplay] at hgranted
  refine ⟨hplay, ?_, ⟨hgranted.fits, hgranted.least⟩, ?_, ?_, ?_, fun e c => asked_edit e c 0⟩
  · intro hrequests
    exact hplay.trans (foldl_moveInWord hrequests).symm
  · intro front m back hms
    exact hasked.orderly granted_empty hms
  · rw [hplay]
    exact empty.mul_pow_growths_le ms
  · rw [hplay]
    obtain hsame | ⟨total, htotal, hlt⟩ := empty.capacity_lt_request ms
    · exact .inl hsame
    · have hle : total ≤ (empty.requests ms).foldr max 0 :=
        List.le_max_of_le' 0 htotal (Nat.le_refl total)
      exact .inr (Nat.lt_of_lt_of_le hlt (Nat.mul_le_mul_left 2 hle))

/-- Steps that first double the capacity and then go past that. -/
def growingSteps : List Step :=
  [.edit (.fill 0x78 64), .edit (.byte 0xff), .clear, .edit (.raw ⟨#[0xff, 0x41]⟩),
    .edit (.reserve 1000)]

theorem capacity_run_twice :
    .copy ∉ growingSteps ∧
      (∀ total ∈ empty.requests (growingSteps.flatMap Step.moves), total < wordMax / 2) ∧
      empty.run growingSteps = (growingSteps.flatMap Step.moves).foldl moveInWord empty ∧
      empty.growths (growingSteps.flatMap Step.moves) = 2 ∧
      64 * 2 ^ 2 ≤ (empty.run growingSteps).capacity := by
  have hcopy : .copy ∉ growingSteps := by simp [growingSteps]
  have hrequests : ∀ total ∈ empty.requests (growingSteps.flatMap Step.moves),
      total < wordMax / 2 := by decide +kernel
  have hgrowths : empty.growths (growingSteps.flatMap Step.moves) = 2 := by decide +kernel
  obtain ⟨-, hwords, -, -, hpow, -⟩ := capacity_run growingSteps hcopy
  rw [hgrowths] at hpow
  exact ⟨hcopy, hrequests, hwords hrequests, hgrowths, hpow⟩

end Buffer

end PercentFormat
