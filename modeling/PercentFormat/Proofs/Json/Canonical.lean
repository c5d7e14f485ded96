import Mathlib.Data.String.Basic
import PercentFormat.Proofs.Json.RoundTrip

/-!
# Canonical objects

The canonical form of an object whose names differ has the same members, each with the canonical
value, in the order of the names. There is one such list only, so a canonical value is its own
canonical form.
-/

namespace PercentFormat.Json

/-- Members in the order of their names, no name twice. -/
def Ordered (ms : List (String × Json)) : Prop := ms.Pairwise fun a b => a.1 < b.1

theorem Ordered.nodup {ms : List (String × Json)} (h : Ordered ms) : (ms.map Prod.fst).Nodup := by
  refine List.pairwise_map.mpr (h.imp ?_)
  intro a b hab
  exact ne_of_lt hab

theorem Ordered.lookup {ms : List (String × Json)} {name : String} {j : Json} (h : Ordered ms)
    (hm : (name, j) ∈ ms) : ms.lookup name = some j := by
  induction ms with
  | nil => exact absurd hm List.not_mem_nil
  | cons m ms ih =>
    obtain ⟨hhead, htail⟩ := List.pairwise_cons.mp h
    rcases List.mem_cons.mp hm with rfl | hm
    · exact List.lookup_cons_self
    · have hne : (name == m.1) = false := beq_false_of_ne (ne_of_gt (hhead _ hm))
      rw [List.lookup_cons, hne]
      exact ih htail hm

section

variable {name : String} {value : Json} {ms : List (String × Json)}

theorem mem_setMember {m : String × Json} (h : m ∈ setMember name value ms) :
    m = (name, value) ∨ m ∈ ms := by
  induction ms with
  | nil => exact .inl (List.mem_singleton.mp h)
  | cons a ms ih =>
    rw [setMember] at h
    split_ifs at h with hlt heq
    · exact List.mem_cons.mp h
    · rcases List.mem_cons.mp h with h | h
      · exact .inl h
      · exact .inr (List.mem_cons_of_mem a h)
    · rcases List.mem_cons.mp h with h | h
      · exact .inr (h ▸ List.mem_cons_self)
      · exact (ih h).imp_right (List.mem_cons_of_mem a)

theorem Ordered.setMember (h : Ordered ms) : Ordered (setMember name value ms) := by
  induction ms with
  | nil => exact List.pairwise_singleton _ _
  | cons a ms ih =>
    obtain ⟨hhead, htail⟩ := List.pairwise_cons.mp h
    rw [Json.setMember]
    split_ifs with hlt heq
    · refine List.pairwise_cons.mpr ⟨?_, h⟩
      intro b hb
      rcases List.mem_cons.mp hb with rfl | hb
      · exact hlt
      · exact lt_trans hlt (hhead b hb)
    · subst heq
      exact List.pairwise_cons.mpr ⟨hhead, htail⟩
    · refine List.pairwise_cons.mpr ⟨?_, ih htail⟩
      intro b hb
      rcases mem_setMember hb with rfl | hb
      · exact lt_of_le_of_ne (not_lt.mp hlt) (Ne.symm heq)
      · exact hhead b hb

theorem perm_setMember (h : name ∉ ms.map Prod.fst) :
    (setMember name value ms).Perm ((name, value) :: ms) := by
  induction ms with
  | nil => exact .refl _
  | cons a ms ih =>
    simp only [List.map_cons, List.mem_cons, not_or] at h
    rw [setMember]
    split_ifs with hlt heq
    · exact .refl _
    · exact absurd heq h.1
    · exact ((ih h.2).cons a).trans (.swap _ _ _)

end

/-- A member with its value in canonical form. -/
def canonicalMember (m : String × Json) : String × Json := (m.1, m.2.canonical)

theorem canonicalItems_eq_map (js : List Json) : canonicalItems js = js.map canonical := by
  induction js with
  | nil => rfl
  | cons j js ih => rw [canonicalItems, ih, List.map_cons]

section

variable {done ms : List (String × Json)}

theorem ordered_canonicalMembers (h : Ordered done) : Ordered (canonicalMembers done ms) := by
  induction ms generalizing done with
  | nil => exact h
  | cons m ms ih => exact ih h.setMember

theorem perm_canonicalMembers (h : ((done ++ ms).map Prod.fst).Nodup) :
    (canonicalMembers done ms).Perm (done ++ ms.map canonicalMember) := by
  induction ms generalizing done with
  | nil => simp [canonicalMembers]
  | cons m ms ih =>
    obtain ⟨name, value⟩ := m
    have hmiddle : (done ++ (name, value) :: ms).Perm ((name, value) :: (done ++ ms)) :=
      List.perm_middle
    rw [(hmiddle.map Prod.fst).nodup_iff] at h
    have hname : name ∉ done.map Prod.fst := by
      intro hn
      refine (List.nodup_cons.mp h).1 ?_
      rw [List.map_append]
      exact List.mem_append_left _ hn
    have hset : (setMember name value.canonical done).Perm ((name, value.canonical) :: done) :=
      perm_setMember hname
    have hnodup : ((setMember name value.canonical done ++ ms).map Prod.fst).Nodup := by
      rw [((hset.append_right ms).map Prod.fst).nodup_iff]
      exact h
    rw [canonicalMembers]
    refine (ih hnodup).trans ((hset.append_right _).trans ?_)
    exact List.perm_middle.symm

/-- The only ordered list of the members is the canonical one. -/
theorem canonicalMembers_eq {l : List (String × Json)} (hperm : l.Perm (ms.map canonicalMember))
    (hordered : Ordered l) : canonicalMembers [] ms = l := by
  have hnames : (ms.map canonicalMember).map Prod.fst = ms.map Prod.fst := by
    rw [List.map_map]
    rfl
  have hnodup : (ms.map Prod.fst).Nodup := by
    rw [← hnames, ← (hperm.map Prod.fst).nodup_iff]
    exact hordered.nodup
  have hcanonical : (canonicalMembers [] ms).Perm (ms.map canonicalMember) :=
    perm_canonicalMembers hnodup
  refine List.Perm.eq_of_pairwise ?_ (ordered_canonicalMembers .nil) hordered
    (hcanonical.trans hperm.symm)
  intro a b _ _ hab hba
  exact absurd hab (lt_asymm hba)

end

/-! ## Canonical values -/

mutual

theorem canonical_canonical : ∀ j : Json, j.canonical.canonical = j.canonical
  | .null => rfl
  | .bool _ => rfl
  | .number _ => rfl
  | .string _ => rfl
  | .array js => by rw [canonical, canonical, canonicalItems_canonical js]
  | .object ms => by
    have hfixed : ∀ m ∈ canonicalMembers [] ms, canonicalMember m = m :=
      fixed_canonicalMembers (by simp) ms
    have hmap : (canonicalMembers [] ms).map canonicalMember = canonicalMembers [] ms :=
      (List.map_congr_left hfixed).trans (List.map_id _)
    have hself : canonicalMembers [] (canonicalMembers [] ms) = canonicalMembers [] ms :=
      canonicalMembers_eq (.of_eq hmap.symm) (ordered_canonicalMembers .nil)
    rw [canonical, canonical, hself]

theorem canonicalItems_canonical :
    ∀ js : List Json, canonicalItems (canonicalItems js) = canonicalItems js
  | [] => rfl
  | j :: js => by
    rw [canonicalItems, canonicalItems, canonical_canonical j, canonicalItems_canonical js]

theorem fixed_canonicalMembers {done : List (String × Json)}
    (h : ∀ m ∈ done, canonicalMember m = m) :
    ∀ ms : List (String × Json), ∀ m ∈ canonicalMembers done ms, canonicalMember m = m
  | [] => h
  | (name, j) :: ms => by
    have hset : ∀ m ∈ setMember name j.canonical done, canonicalMember m = m := by
      intro m hm
      rcases mem_setMember hm with rfl | hm
      · rw [canonicalMember, canonical_canonical j]
      · exact h m hm
    exact fixed_canonicalMembers hset ms

end

/-- Objects in canonical form are ordered, and so are the objects in them. -/
theorem ordered_of_canonical {j : Json} {ms : List (String × Json)} (h : j.canonical = .object ms) :
    Ordered ms ∧ ∀ m ∈ ms, canonicalMember m = m := by
  cases j with
  | object members =>
    obtain rfl := Json.object.inj h
    exact ⟨ordered_canonicalMembers .nil, fixed_canonicalMembers (by simp) members⟩
  | _ => exact absurd h nofun

theorem membersFit_iff {d : Nat} {ms : List (String × Json)} :
    MembersFit d ms ↔ ∀ m ∈ ms, Fits d m.2 := by
  induction ms with
  | nil => simp [MembersFit]
  | cons m ms ih => simp [MembersFit, ih]

theorem MembersFit.setMember {d : Nat} {name : String} {j : Json} {ms : List (String × Json)}
    (h : MembersFit d ms) (hj : Fits d j) : MembersFit d (setMember name j ms) := by
  rw [membersFit_iff] at h ⊢
  intro m hm
  rcases mem_setMember hm with rfl | hm
  · exact hj
  · exact h m hm

mutual

theorem Fits.canonical {d : Nat} : ∀ {j : Json}, Fits d j → Fits d j.canonical
  | .null, h => h
  | .bool _, h => h
  | .number _, h => h
  | .string _, h => h
  | .array js, h => by
    cases d with
    | zero => exact h
    | succ d =>
      have hitems : ItemsFit d js := h
      exact hitems.canonical
  | .object ms, h => by
    cases d with
    | zero => exact h
    | succ d =>
      have hmembers : MembersFit d ms := h
      have hnone : MembersFit d [] := trivial
      exact hnone.canonical hmembers

theorem ItemsFit.canonical {d : Nat} :
    ∀ {js : List Json}, ItemsFit d js → ItemsFit d (canonicalItems js)
  | [], h => h
  | _ :: _, h => ⟨h.1.canonical, ItemsFit.canonical h.2⟩

theorem MembersFit.canonical {d : Nat} {done : List (String × Json)} (hdone : MembersFit d done) :
    ∀ {ms : List (String × Json)}, MembersFit d ms → MembersFit d (canonicalMembers done ms)
  | [], _ => hdone
  | (_, _) :: _, h => MembersFit.canonical (hdone.setMember h.1.canonical) h.2

end

end PercentFormat.Json
