import PercentFormat.Proofs.Json.Canonical

/-!
# The height of values

What a text shows is never nested deeper than the reader allows, and canonical forms are not nested
deeper than the values they come from. So a value that was read can be written and read again, if
its numbers are integers.
-/

namespace PercentFormat.Json

mutual

/-- How many arrays and objects are nested in a value. -/
def height : Json → Nat
  | .array items => itemsHeight items + 1
  | .object members => membersHeight members + 1
  | .null => 0
  | .bool _ => 0
  | .number _ => 0
  | .string _ => 0

def itemsHeight : List Json → Nat
  | [] => 0
  | j :: js => max (height j) (itemsHeight js)

def membersHeight : List (String × Json) → Nat
  | [] => 0
  | (_, j) :: ms => max (height j) (membersHeight ms)

end

/-- All numbers are integers of 64 bits, at any depth. -/
def Integral (j : Json) : Prop := ∃ depth, Fits depth j

theorem membersHeight_le_iff {ms : List (String × Json)} {d : Nat} :
    membersHeight ms ≤ d ↔ ∀ m ∈ ms, m.2.height ≤ d := by
  induction ms with
  | nil => simp [membersHeight]
  | cons m ms ih => simp [membersHeight, ih]

theorem height_lt_of_mem {ms : List (String × Json)} {m : String × Json} (h : m ∈ ms) :
    m.2.height < (object ms).height :=
  Nat.lt_succ_of_le (membersHeight_le_iff.mp (Nat.le_refl _) m h)

mutual

theorem Fits.of_height {d k : Nat} : ∀ {j : Json}, Fits k j → j.height ≤ d → Fits d j
  | .null, h, _ => h
  | .bool _, h, _ => h
  | .number (.integer _), h, _ => h
  | .string _, h, _ => h
  | .array js, h, hd => by
    obtain ⟨k, rfl, hjs⟩ := h.array
    obtain ⟨d, rfl⟩ := Nat.exists_eq_add_of_le' (Nat.le_of_add_left_le hd)
    exact hjs.of_height (Nat.le_of_succ_le_succ hd)
  | .object ms, h, hd => by
    obtain ⟨k, rfl, hms⟩ := h.object
    obtain ⟨d, rfl⟩ := Nat.exists_eq_add_of_le' (Nat.le_of_add_left_le hd)
    exact hms.of_height (Nat.le_of_succ_le_succ hd)

theorem ItemsFit.of_height {d k : Nat} :
    ∀ {js : List Json}, ItemsFit k js → itemsHeight js ≤ d → ItemsFit d js
  | [], _, _ => trivial
  | _ :: _, h, hd => by
    obtain ⟨hj, hjs⟩ := Nat.max_le.mp hd
    exact ⟨h.1.of_height hj, ItemsFit.of_height h.2 hjs⟩

theorem MembersFit.of_height {d k : Nat} :
    ∀ {ms : List (String × Json)}, MembersFit k ms → membersHeight ms ≤ d → MembersFit d ms
  | [], _, _ => trivial
  | (_, _) :: _, h, hd => by
    obtain ⟨hj, hms⟩ := Nat.max_le.mp hd
    exact ⟨h.1.of_height hj, MembersFit.of_height h.2 hms⟩

end

/-! ## Canonical forms -/

theorem membersHeight_setMember_le (name : String) (j : Json) (ms : List (String × Json)) :
    membersHeight (setMember name j ms) ≤ max j.height (membersHeight ms) := by
  refine membersHeight_le_iff.mpr ?_
  intro m hm
  rcases mem_setMember hm with rfl | hm
  · exact Nat.le_max_left _ _
  · exact Nat.le_trans (membersHeight_le_iff.mp (Nat.le_refl _) m hm) (Nat.le_max_right _ _)

mutual

theorem height_canonical_le : ∀ j : Json, j.canonical.height ≤ j.height
  | .null => Nat.le_refl _
  | .bool _ => Nat.le_refl _
  | .number _ => Nat.le_refl _
  | .string _ => Nat.le_refl _
  | .array js => Nat.succ_le_succ (itemsHeight_canonical_le js)
  | .object ms => by
    have hmembers := membersHeight_canonical_le [] ms
    rw [membersHeight, Nat.zero_max] at hmembers
    exact Nat.succ_le_succ hmembers

theorem itemsHeight_canonical_le :
    ∀ js : List Json, itemsHeight (canonicalItems js) ≤ itemsHeight js
  | [] => Nat.le_refl _
  | j :: js => by
    have hhead := height_canonical_le j
    have htail := itemsHeight_canonical_le js
    simp only [canonicalItems, itemsHeight]
    omega

theorem membersHeight_canonical_le (done : List (String × Json)) :
    ∀ ms : List (String × Json),
      membersHeight (canonicalMembers done ms) ≤ max (membersHeight done) (membersHeight ms)
  | [] => Nat.le_max_left _ _
  | (name, j) :: ms => by
    have hhead := height_canonical_le j
    have hset := membersHeight_setMember_le name j.canonical done
    have htail := membersHeight_canonical_le (setMember name j.canonical done) ms
    simp only [canonicalMembers, membersHeight]
    omega

end

/-! ## What outlines show -/

namespace Outline

mutual

theorem height_le_of_value? {depth : Nat} :
    ∀ {o : Outline} {j : Json}, o.value? depth = some j → j.height ≤ depth
  | .broken, _, h => by simp [value?] at h
  | .null, _, h => by
    obtain rfl := Option.some.inj h
    exact Nat.zero_le _
  | .bool _, _, h => by
    obtain rfl := Option.some.inj h
    exact Nat.zero_le _
  | .number _, _, h => by
    obtain ⟨n, -, rfl⟩ := Option.map_eq_some_iff.mp h
    exact Nat.zero_le _
  | .string _, _, h => by
    obtain ⟨s, -, rfl⟩ := Option.map_eq_some_iff.mp h
    exact Nat.zero_le _
  | .array os, _, h => by
    cases depth with
    | zero => simp [value?] at h
    | succ depth =>
      obtain ⟨js, hjs, rfl⟩ := Option.map_eq_some_iff.mp h
      exact Nat.succ_le_succ (itemsHeight_le_of_itemValues? hjs)
  | .object os, _, h => by
    cases depth with
    | zero => simp [value?] at h
    | succ depth =>
      obtain ⟨ms, hms, rfl⟩ := Option.map_eq_some_iff.mp h
      exact Nat.succ_le_succ (membersHeight_le_of_memberValues? hms)

theorem itemsHeight_le_of_itemValues? {depth : Nat} :
    ∀ {os : List Outline} {js : List Json}, itemValues? depth os = some js →
      itemsHeight js ≤ depth
  | [], _, h => by
    obtain rfl := Option.some.inj h
    exact Nat.zero_le _
  | o :: os, _, h => by
    simp only [itemValues?, Option.bind_eq_bind, Option.bind_eq_some_iff, Option.some.injEq] at h
    obtain ⟨j, hj, js, hjs, rfl⟩ := h
    exact Nat.max_le.mpr ⟨height_le_of_value? hj, itemsHeight_le_of_itemValues? hjs⟩

theorem membersHeight_le_of_memberValues? {depth : Nat} :
    ∀ {os : List (Option String × Outline)} {ms : List (String × Json)},
      memberValues? depth os = some ms → membersHeight ms ≤ depth
  | [], _, h => by
    obtain rfl := Option.some.inj h
    exact Nat.zero_le _
  | (name, o) :: os, _, h => by
    simp only [memberValues?, Option.bind_eq_bind, Option.bind_eq_some_iff,
      Option.some.injEq] at h
    obtain ⟨name, -, j, hj, ms, hms, rfl⟩ := h
    exact Nat.max_le.mpr ⟨height_le_of_value? hj, membersHeight_le_of_memberValues? hms⟩

end

end Outline

mutual

/-- An outline that was made of a value shows no other. -/
theorem eq_of_value?_outline {depth : Nat} :
    ∀ {j k : Json}, j.outline.value? depth = some k → k = j
  | .null, _, h => (Option.some.inj h).symm
  | .bool _, _, h => (Option.some.inj h).symm
  | .number _, _, h => (Option.some.inj h).symm
  | .string _, _, h => (Option.some.inj h).symm
  | .array js, _, h => by
    cases depth with
    | zero => simp [outline, Outline.value?] at h
    | succ depth =>
      obtain ⟨ks, hks, rfl⟩ := Option.map_eq_some_iff.mp h
      exact congrArg array (eq_of_itemValues?_outline hks)
  | .object ms, _, h => by
    cases depth with
    | zero => simp [outline, Outline.value?] at h
    | succ depth =>
      obtain ⟨ns, hns, rfl⟩ := Option.map_eq_some_iff.mp h
      exact congrArg object (eq_of_memberValues?_outline hns)

theorem eq_of_itemValues?_outline {depth : Nat} :
    ∀ {js ks : List Json}, Outline.itemValues? depth (itemOutlines js) = some ks → ks = js
  | [], _, h => (Option.some.inj h).symm
  | j :: js, _, h => by
    simp only [itemOutlines, Outline.itemValues?, Option.bind_eq_bind, Option.bind_eq_some_iff,
      Option.some.injEq] at h
    obtain ⟨k, hk, ks, hks, rfl⟩ := h
    rw [eq_of_value?_outline hk, eq_of_itemValues?_outline hks]

theorem eq_of_memberValues?_outline {depth : Nat} :
    ∀ {ms ns : List (String × Json)},
      Outline.memberValues? depth (memberOutlines ms) = some ns → ns = ms
  | [], _, h => (Option.some.inj h).symm
  | (name, j) :: ms, _, h => by
    simp only [memberOutlines, Outline.memberValues?, Option.bind_eq_bind,
      Option.bind_eq_some_iff, Option.some.injEq] at h
    obtain ⟨name, rfl, k, hk, ns, hns, rfl⟩ := h
    rw [eq_of_value?_outline hk, eq_of_memberValues?_outline hns]

end

theorem height_le_of_parse? {cs : List Char} {j : Json} (h : parse? cs = some j) :
    j.height ≤ Outline.maxDepth := by
  unfold parse? at h
  split at h
  · exact Outline.height_le_of_value? h
  · exact absurd h nofun

end PercentFormat.Json
