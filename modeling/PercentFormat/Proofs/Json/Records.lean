import PercentFormat.Json.Record
import PercentFormat.Proofs.Json.RoundTrip

/-!
# Reading records

A record is read from an object when its fields take the members one after the other, the names
differ, and no field is missing that has to be there.
-/

namespace PercentFormat.Json

variable {α β : Type}

/-! ## Members that are left out -/

theorem names_ifSome (name : String) (write : α → Json) (o : Option α) :
    ((memberIfSome name write o).map Prod.fst).Sublist [name] := by
  cases o with
  | none => exact List.nil_sublist _
  | some x => exact .refl _

theorem fits_ifSome {d : Nat} {write : α → Json} {o : Option α}
    (h : ∀ x ∈ o, Fits d (write x)) (name : String) : MembersFit d (memberIfSome name write o) := by
  cases o with
  | none => exact trivial
  | some x => exact ⟨h x rfl, trivial⟩

theorem MembersFit.append {d : Nat} {ms ns : List (String × Json)} (h : MembersFit d ms)
    (h' : MembersFit d ns) : MembersFit d (ms ++ ns) := by
  induction ms with
  | nil => exact h'
  | cons m ms ih => exact ⟨h.1, ih h.2⟩

theorem fits_ofNat {d n : Nat} (h : n < 2 ^ 64) : Fits d (ofNat n) := by
  simp only [ofNat, Fits, inRange]
  omega

theorem fits_ofStrings {d : Nat} (ss : List String) : Fits (d + 1) (ofStrings ss) := by
  rw [ofStrings, Fits]
  induction ss with
  | nil => trivial
  | cons s ss ih => exact ⟨trivial, ih⟩

/-! ## Values -/

theorem asOption_outline {read : Outline → Except Failure β} {x : β} {j : Json}
    (h : read j.outline = .ok x) (hnull : j ≠ .null) :
    asOption read j.outline = .ok (some x) := by
  unfold asOption
  split
  · next heq =>
    cases j <;> simp_all [outline]
  · rw [h]
    rfl

theorem asList_outline {read : Outline → Except Failure β} {write : β → Json} {xs : List β}
    (h : ∀ x ∈ xs, read (write x).outline = .ok x) :
    asList read (Json.array (xs.map write)).outline = .ok xs := by
  rw [outline, asList]
  induction xs with
  | nil => rfl
  | cons x xs ih =>
    rw [List.map_cons, itemOutlines, List.mapM_cons, h x List.mem_cons_self,
      ih fun y hy => h y (List.mem_cons_of_mem x hy)]
    rfl

theorem asNat_outline {n : Nat} (h : n < 2 ^ 64) : asNat (ofNat n).outline = .ok n := by
  have hrange : (0 : Int) ≤ n ∧ inRange n := by
    unfold inRange
    omega
  rw [ofNat, outline, asNat, if_pos hrange]
  rfl

theorem asValue_outline {j : Json} (h : Fits Outline.maxDepth j) : asValue j.outline = .ok j := by
  rw [asValue, value?_outline j h]

theorem asNamed_outline {ofName? : String → Option α} {name : String} {a : α}
    (h : ofName? name = some a) : asNamed ofName? (Json.string name).outline = .ok a := by
  simp only [asNamed, outline, asString, bind, Except.bind, h]

/-! ## Members -/

namespace Field

/-- Each member is taken by the field of its name, from the first record to the second. -/
inductive Taken (fs : List (Field α)) : α → List (String × Json) → α → Prop
  | nil (a : α) : Taken fs a [] a
  | cons {f : Field α} {name : String} {a b c : α} {j : Json} {ms : List (String × Json)}
      (found : fs.find? (·.name = name) = some f) (set : f.set a j.outline = .ok b)
      (rest : Taken fs b ms c) : Taken fs a ((name, j) :: ms) c

namespace Taken

variable {fs : List (Field α)} {f : Field α} {name : String} {a b c : α} {j : Json}
  {ms : List (String × Json)}

theorem append {ns : List (String × Json)} (h : Taken fs a ms b) (h' : Taken fs b ns c) :
    Taken fs a (ms ++ ns) c := by
  induction h with
  | nil a => exact h'
  | cons found set rest ih => exact .cons found set (ih h')

theorem single (found : fs.find? (·.name = name) = some f) (set : f.set a j.outline = .ok b) :
    Taken fs a [(name, j)] b :=
  .cons found set (.nil b)

theorem required {read : Outline → Except Failure β} {update : α → β → α} {x : β}
    (found : fs.find? (·.name = name) = some (.required name read update))
    (hread : read j.outline = .ok x) (hupdate : update a x = b) : Taken fs a [(name, j)] b := by
  refine single found ?_
  simp only [Field.required, reading, hread, Except.map, hupdate]

theorem defaulted {read : Outline → Except Failure β} {update : α → β → α} {x : β}
    (found : fs.find? (·.name = name) = some (.defaulted name read update))
    (hread : read j.outline = .ok x) (hupdate : update a x = b) : Taken fs a [(name, j)] b := by
  refine single found ?_
  simp only [Field.defaulted, reading, hread, Except.map, hupdate]

/-- A member that may be left out, where the record has no value yet. -/
theorem optional {read : Outline → Except Failure β} {update : α → Option β → α}
    {write : β → Json} {o : Option β}
    (found : fs.find? (·.name = name) = some (.optional name read update))
    (hread : ∀ x ∈ o, read (write x).outline = .ok x) (hnull : ∀ x ∈ o, write x ≠ .null)
    (hnone : update a none = a) (hupdate : update a o = b) :
    Taken fs a (memberIfSome name write o) b := by
  cases o with
  | none =>
    rw [← hupdate, hnone]
    exact .nil a
  | some x =>
    refine single found ?_
    simp only [Field.optional, reading, asOption_outline (hread x rfl) (hnull x rfl), Except.map,
      hupdate]

/-- A member that is null, where the record has no value yet. -/
theorem nullable {read : Outline → Except Failure β} {update : α → Option β → α}
    {write : β → Json} {o : Option β}
    (found : fs.find? (·.name = name) = some (.optional name read update))
    (hread : ∀ x ∈ o, read (write x).outline = .ok x) (hnull : ∀ x ∈ o, write x ≠ .null)
    (hupdate : update a o = b) : Taken fs a [(name, ofOption write o)] b := by
  refine single found ?_
  cases o with
  | none => exact congrArg Except.ok hupdate
  | some x =>
    simp only [Field.optional, reading, ofOption, asOption_outline (hread x rfl) (hnull x rfl),
      Except.map, hupdate]

theorem setMembers (h : Taken fs a ms b) {seen : List String} (hnodup : (ms.map Prod.fst).Nodup)
    (hfresh : ∀ m ∈ ms, m.1 ∉ seen)
    (hcomplete : ∀ f ∈ fs, f.presence = .required → f.name ∈ seen ∨ f.name ∈ ms.map Prod.fst) :
    setMembers fs seen a (memberOutlines ms) = .ok b := by
  induction h generalizing seen with
  | nil a =>
    have hall : areComplete fs seen = true := by
      refine List.all_eq_true.mpr ?_
      intro f hf
      by_cases hp : f.presence = .required
      · simpa [hp] using hcomplete f hf hp
      · simp [hp]
    simp only [memberOutlines, Field.setMembers, hall, if_true]
  | @cons f name a b c j ms found set rest ih =>
    obtain ⟨hname, hnodup⟩ := List.nodup_cons.mp hnodup
    have hseen : name ∉ seen := hfresh (name, j) List.mem_cons_self
    have hrest : Field.setMembers fs (name :: seen) b (memberOutlines ms) = .ok c := by
      refine ih hnodup ?_ ?_
      · intro m hm
        rw [List.mem_cons, not_or]
        refine ⟨?_, hfresh m (List.mem_cons_of_mem _ hm)⟩
        intro heq
        have hmem := List.mem_map_of_mem (f := Prod.fst) hm
        rw [heq] at hmem
        exact hname hmem
      · intro g hg hp
        rw [List.mem_cons]
        rcases hcomplete g hg hp with hold | hnew
        · exact .inl (.inr hold)
        · exact (List.mem_cons.mp hnew).imp_left .inl
    simp only [memberOutlines, Field.setMembers, found, set]
    rw [if_neg (by simpa using hseen)]
    exact hrest

theorem asRecord (h : Taken fs a ms b) (hnodup : (ms.map Prod.fst).Nodup)
    (hcomplete : ∀ f ∈ fs, f.presence = .required → f.name ∈ ms.map Prod.fst) :
    asRecord fs a (Json.object ms).outline = .ok b :=
  h.setMembers hnodup (by simp) fun f hf hp => .inr (hcomplete f hf hp)

end Taken

end Field

/-! ## Records that were read -/

theorem memberOutlines_eq_map (ms : List (String × Json)) :
    memberOutlines ms = ms.map fun m => (some m.1, m.2.outline) := by
  induction ms with
  | nil => rfl
  | cons m ms ih => rw [memberOutlines, ih, List.map_cons]

namespace Field

theorem set_reading_eq_ok {presence : Presence} {name : String} {read : Outline → Except Failure β}
    {update : α → β → α} {a b : α} {o : Outline} :
    (reading presence name read update).set a o = .ok b ↔ ∃ x, read o = .ok x ∧ update a x = b := by
  cases hread : read o <;> simp [reading, hread, Except.map]

/-- What setting a field keeps of a record and of the names that were seen, reading an object keeps
to the end. There no required name is missing. -/
theorem setMembers_induction {fs : List (Field α)} {P : List String → α → Prop}
    {ms : List (Option String × Outline)} {seen : List String} {a b : α}
    (hset : ∀ f ∈ fs, ∀ o, (some f.name, o) ∈ ms → ∀ seen a b, P seen a → f.set a o = .ok b →
      P (f.name :: seen) b)
    (ha : P seen a) (h : setMembers fs seen a ms = .ok b) :
    ∃ seen, areComplete fs seen = true ∧ P seen b := by
  induction ms generalizing seen a with
  | nil =>
    rw [setMembers] at h
    split_ifs at h with hall
    obtain rfl := Except.ok.inj h
    exact ⟨seen, hall, ha⟩
  | cons m ms ih =>
    have hrest : ∀ f ∈ fs, ∀ o, (some f.name, o) ∈ ms → ∀ seen a b, P seen a → f.set a o = .ok b →
        P (f.name :: seen) b :=
      fun f hf o ho => hset f hf o (List.mem_cons_of_mem m ho)
    obtain ⟨_ | name, o⟩ := m
    · exact absurd h nofun
    rw [setMembers] at h
    split at h
    · split_ifs at h with hintact
      exact ih hrest ha h
    · next f hf =>
      obtain rfl : f.name = name := by simpa using List.find?_some hf
      split_ifs at h with hseen
      split at h
      · next c hc =>
        have hmem := List.mem_of_find?_eq_some hf
        exact ih hrest (hset f hmem o List.mem_cons_self seen a c ha hc) h
      · exact absurd h nofun

theorem setItems_induction {fs : List (Field α)} {P : α → Prop} {os : List Outline} {a b : α}
    (hset : ∀ f ∈ fs, ∀ o a b, P a → f.set a o = .ok b → P b) (ha : P a)
    (h : setItems a fs os = .ok b) : P b := by
  induction fs generalizing a os with
  | nil =>
    cases os with
    | nil => exact Except.ok.inj h ▸ ha
    | cons o os => exact absurd h nofun
  | cons f fs ih =>
    obtain ⟨hf, hrest⟩ := List.forall_mem_cons.mp hset
    cases os with
    | nil =>
      rw [setItems] at h
      split_ifs at h with hdefault
      exact ih hrest ha h
    | cons o os =>
      rw [setItems] at h
      split at h
      · next c hc => exact ih hrest (hf o a c ha hc) h
      · exact absurd h nofun

end Field

/-- What setting a field keeps of a record, reading keeps in both forms of a record. -/
theorem asRecord_induction {fs : List (Field α)} {P : α → Prop} {o : Outline} {blank a : α}
    (hset : ∀ f ∈ fs, ∀ o a b, P a → f.set a o = .ok b → P b) (hblank : P blank)
    (h : asRecord fs blank o = .ok a) : P a := by
  cases o with
  | object members =>
    obtain ⟨-, -, ha⟩ := Field.setMembers_induction (P := fun _ => P)
      (fun f hf o _ _ a b ha hb => hset f hf o a b ha hb) hblank h
    exact ha
  | array items => exact Field.setItems_induction hset hblank h
  | _ => exact absurd h nofun

theorem lt_of_asNat {o : Outline} {n : Nat} (h : asNat o = .ok n) : n < 2 ^ 64 := by
  unfold asNat at h
  split at h
  · split_ifs at h with hrange
    obtain rfl := Except.ok.inj h
    obtain ⟨hpos, -, hle⟩ := hrange
    omega
  · exact absurd h nofun

theorem exists_outline_of_parseAs {read : Outline → Except Failure α} {text : String} {a : α}
    (h : parseAs read text = .ok a) : ∃ o, read o = .ok a := by
  unfold parseAs at h
  dsimp only at h
  split at h
  · next b hb =>
    split_ifs at h with hended
    exact ⟨_, Except.ok.inj h ▸ hb⟩
  · exact absurd h nofun

/-- A record is read back from the text of a value that it is read from. -/
theorem parseAs_pretty {read : Outline → Except Failure α} {j : Json} {a : α} {d : Nat}
    (h : Fits d j) (hread : read j.outline = .ok a) : parseAs read j.pretty = .ok a := by
  rw [parseAs, pretty, String.toList_ofList, outlineOf_write Layout.blank_pretty h]
  simp only [hread, if_true]

end PercentFormat.Json
