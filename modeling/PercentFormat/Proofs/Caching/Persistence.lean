import Mathlib.Data.Finset.Card
import Mathlib.Data.List.DropRight
import PercentFormat.Proofs.Caching.Bookkeeping

/-!
# Entries persist

A cache only changes by inserts and clears. What it holds is what was inserted first under each
format since the last clear, whoever inserted it, so a cached format is looked up as the same object
until the next clear.
-/

namespace PercentFormat

namespace Cache

variable {α : Type}

/-! ## Changes -/

inductive Change (α : Type)
  | insert (format : String) (value : α)
  | clear

def Change.isClear : Change α → Bool
  | .insert .. => false
  | .clear => true

def Change.entry? : Change α → Option (String × α)
  | .insert format value => some (format, value)
  | .clear => none

def apply (c : Cache α) : Change α → Cache α
  | .insert format value => (c.insert format value).2
  | .clear => c.clear

/-- What was inserted since the last clear, or since the cache was new, the refused included. -/
def sinceClear (changes : List (Change α)) : List (String × α) :=
  (changes.rtakeWhile fun e => !e.isClear).filterMap Change.entry?

theorem sinceClear_insert (changes : List (Change α)) (f : String) (v : α) :
    sinceClear (changes ++ [.insert f v]) = sinceClear changes ++ [(f, v)] := by
  rw [sinceClear, List.rtakeWhile_concat_pos _ _ _ rfl, List.filterMap_append]
  rfl

theorem sinceClear_clear (changes : List (Change α)) :
    sinceClear (changes ++ [.clear]) = [] := by
  rw [sinceClear, List.rtakeWhile_concat_neg _ _ _ (by simp [Change.isClear])]
  rfl

/-! ## Contents -/

/-- A cache holds the first entry under each format. -/
structure Holds (c : Cache α) (inserted : List (String × α)) : Prop where
  get? : ∀ f, c.get? f = inserted.lookup f
  size : c.size = (inserted.map Prod.fst).toFinset.card

theorem holds_empty : Holds ({} : Cache α) [] := ⟨fun _ => rfl, rfl⟩

theorem isSome_lookup (es : List (String × α)) (f : String) :
    (es.lookup f).isSome = true ↔ f ∈ es.map Prod.fst := by
  rw [List.lookup_isSome_iff, List.mem_map]
  constructor
  · rintro ⟨e, he, heq⟩
    exact ⟨e, he, (beq_iff_eq.mp heq).symm⟩
  · rintro ⟨e, he, rfl⟩
    exact ⟨e, he, beq_self_eq_true _⟩

theorem Holds.insert {c : Cache α} {es : List (String × α)} (h : Holds c es) (f : String) (v : α) :
    Holds (c.insert f v).2 (es ++ [(f, v)]) := by
  refine ⟨?_, ?_⟩
  · intro g
    rw [get?_insert, List.lookup_append, lookup_entry, List.lookup_nil, ← h.get?]
    by_cases hg : g = f
    · subst hg
      cases c.get? g <;> simp
    · simp [hg]
  · have hmem : (c.get? f).isNone = true ↔ f ∉ (es.map Prod.fst).toFinset := by
      rw [List.mem_toFinset, ← isSome_lookup, ← h.get?]
      cases c.get? f <;> simp
    have hnew : ((es ++ [(f, v)]).map Prod.fst).toFinset =
        Insert.insert f (es.map Prod.fst).toFinset := by
      rw [List.map_append, List.toFinset_append, Finset.union_comm]
      rfl
    rw [size_insert, hnew, Finset.card_insert_eq_ite, ← h.size]
    by_cases hf : (c.get? f).isNone = true
    · rw [if_pos hf, if_neg (hmem.mp hf)]
    · rw [if_neg hf, if_pos (not_not.mp (mt hmem.mpr hf)), Nat.add_zero]

theorem holds_foldl (changes : List (Change α)) :
    Holds (changes.foldl apply {}) (sinceClear changes) := by
  induction changes using List.reverseRecOn with
  | nil => exact holds_empty
  | append_singleton changes e ih =>
    rw [List.foldl_append]
    cases e with
    | insert f v =>
      rw [sinceClear_insert]
      exact ih.insert f v
    | clear =>
      rw [sinceClear_clear]
      exact holds_empty

/-- Nothing but a clear takes an entry away or puts another in its place. -/
theorem get?_foldl_of_some {c : Cache α} {f : String} {v : α} (h : c.get? f = some v)
    {changes : List (Change α)} (hc : ∀ e ∈ changes, e.isClear = false) :
    (changes.foldl apply c).get? f = some v := by
  induction changes generalizing c with
  | nil => exact h
  | cons e changes ih =>
    obtain ⟨he, hrest⟩ := List.forall_mem_cons.mp hc
    refine ih ?_ hrest
    cases e with
    | clear => simp [Change.isClear] at he
    | insert k w =>
      rw [apply, get?_insert]
      split
      · next hk => rw [← hk, h, Option.getD_some]
      · exact h

theorem insert_refused {c : Cache α} {f : String} {v : α} (h : (c.insert f v).1 = false) :
    (c.insert f v).2 = c := by
  rw [insert_fst, Option.isNone_eq_false_iff, Option.isSome_iff_exists] at h
  obtain ⟨w, hw⟩ := h
  simp only [insert, hw]

end Cache

namespace Registry

/-! ## Callers -/

/-- What callers do: steps of the registry, and inserts and clears of its cache past it. Any object
may be inserted under any format. -/
inductive Access
  | step (e : Event)
  | insert (format : String) (c : Compiled)
  | clear

def Access.clears : Access → Bool
  | .step .purge => true
  | .clear => true
  | _ => false

def access (r : Registry) : Access → Registry
  | .step e => r.apply e
  | .insert f c => { r with cache := (r.cache.insert f c).2 }
  | .clear => { r with cache := r.cache.clear }

def accessAll (r : Registry) (accesses : List Access) : Registry := accesses.foldl access r

/-- What someone else inserts while a lookup compiles a format that it did not find. -/
def intrusion (r : Registry) (f : String) : List (Cache.Change Compiled) :=
  match r.cache.get? f, r.compiler.rival r.made f with
  | none, some t => [.insert f ⟨r.made, t⟩]
  | _, _ => []

/-- A lookup inserts its object when it promotes. -/
def changesOf (r : Registry) : Access → List (Cache.Change Compiled)
  | .step (.lookup f) =>
    r.intrusion f ++ if r.promotes f then [.insert f (r.lookup f).1] else []
  | .step (.insert f t) => [.insert f ⟨r.made, t⟩]
  | .step .purge => [.clear]
  | .step (.setThreshold _) => []
  | .step (.bump _) => []
  | .insert f c => [.insert f c]
  | .clear => [.clear]

def changes (r : Registry) : List Access → List (Cache.Change Compiled)
  | [] => []
  | a :: accesses => r.changesOf a ++ (r.access a).changes accesses

theorem disturbed_eq (r : Registry) (f : String) :
    r.disturbed f = (r.intrusion f).foldl Cache.apply r.cache := by
  unfold disturbed intrusion
  cases r.cache.get? f with
  | some c => rfl
  | none => cases r.compiler.rival r.made f <;> rfl

theorem cache_access (r : Registry) (a : Access) :
    (r.access a).cache = (r.changesOf a).foldl Cache.apply r.cache := by
  cases a with
  | insert f c => rfl
  | clear => rfl
  | step e =>
    cases e with
    | lookup f =>
      rw [access, apply, (r.lookup_outcome f).cache, changesOf, List.foldl_append,
        ← disturbed_eq]
      split
      · rfl
      · rfl
    | _ => rfl

theorem cache_accessAll (r : Registry) (accesses : List Access) :
    (r.accessAll accesses).cache = (r.changes accesses).foldl Cache.apply r.cache := by
  induction accesses generalizing r with
  | nil => rfl
  | cons a accesses ih =>
    rw [changes, List.foldl_append, ← cache_access]
    exact ih (r.access a)

theorem isClear_intrusion (r : Registry) (f : String) :
    ∀ e ∈ r.intrusion f, e.isClear = false := by
  unfold intrusion
  split
  · simp [Cache.Change.isClear]
  · simp

theorem isClear_changesOf (r : Registry) {a : Access} (h : a.clears = false) :
    ∀ e ∈ r.changesOf a, e.isClear = false := by
  cases a with
  | insert f c => simp [changesOf, Cache.Change.isClear]
  | clear => simp [Access.clears] at h
  | step s =>
    cases s with
    | lookup f =>
      rw [changesOf, List.forall_mem_append]
      refine ⟨r.isClear_intrusion f, ?_⟩
      split
      · simp [Cache.Change.isClear]
      · simp
    | setThreshold t => simp [changesOf]
    | purge => simp [Access.clears] at h
    | bump f => simp [changesOf]
    | insert f t => simp [changesOf, Cache.Change.isClear]

theorem isClear_changes (r : Registry) {accesses : List Access}
    (h : ∀ a ∈ accesses, a.clears = false) : ∀ e ∈ r.changes accesses, e.isClear = false := by
  induction accesses generalizing r with
  | nil => simp [changes]
  | cons a accesses ih =>
    obtain ⟨ha, hrest⟩ := List.forall_mem_cons.mp h
    rw [changes, List.forall_mem_append]
    exact ⟨r.isClear_changesOf ha, ih (r.access a) hrest⟩

/-- The cache of a new registry holds what was first inserted since the last clear. An insert is
refused exactly when there is an entry, and then changes nothing. What is cached is looked up as the
same object until the next clear. -/
theorem entries_persist (c : Compiler) (t : Threshold) (accesses : List Access) :
    let new : Registry := { compiler := c, threshold := t }
    let r := new.accessAll accesses
    let inserted := Cache.sinceClear (new.changes accesses)
    (∀ f, r.cache.get? f = inserted.lookup f) ∧
    r.cache.size = (inserted.map Prod.fst).toFinset.card ∧
    (∀ f v, ((r.cache.insert f v).1 = true ↔ r.cache.get? f = none) ∧
      ((r.cache.insert f v).1 = false → (r.cache.insert f v).2 = r.cache)) ∧
    ∀ f v, r.cache.get? f = some v → ∀ behind : List Access, (∀ a ∈ behind, a.clears = false) →
      ((r.accessAll behind).lookup f).1 = v := by
  intro new r inserted
  have hholds : r.cache.Holds inserted := by
    have hcache : r.cache = (new.changes accesses).foldl Cache.apply {} :=
      new.cache_accessAll accesses
    rw [hcache]
    exact Cache.holds_foldl _
  refine ⟨hholds.get?, hholds.size, ?_, ?_⟩
  · intro f v
    refine ⟨?_, Cache.insert_refused⟩
    rw [Cache.insert_fst, Option.isNone_iff_eq_none]
  · intro f v hv behind hbehind
    have hcached : (r.accessAll behind).cache.get? f = some v := by
      rw [cache_accessAll]
      exact Cache.get?_foldl_of_some hv (r.isClear_changes hbehind)
    rw [lookup_hit hcached]

theorem entries_persist_overtaken :
    ((accessAll { compiler := .overtaken } [.step (.lookup "%s")]).cache.insert "%s"
        ⟨7, Template.compile "%q"⟩).1 = false ∧
      ((accessAll { compiler := .overtaken } [.step (.lookup "%s")]).cache.insert "%s"
        ⟨7, Template.compile "%q"⟩).2 =
          (accessAll { compiler := .overtaken } [.step (.lookup "%s")]).cache ∧
      (accessAll { compiler := .overtaken } [.step (.lookup "%s")]).cache.get? "%s" =
        some ⟨0, Template.compile "%s"⟩ ∧
      ((accessAll (accessAll { compiler := .overtaken } [.step (.lookup "%s")])
        [.insert "%s" ⟨7, Template.compile "%q"⟩, .step (.setThreshold .disabled),
          .step (.lookup "%q")]).lookup "%s").1 = ⟨0, Template.compile "%s"⟩ := by
  obtain ⟨-, -, hinsert, hlookup⟩ := entries_persist .overtaken .always [.step (.lookup "%s")]
  have hrefused : ((accessAll { compiler := .overtaken } [.step (.lookup "%s")]).cache.insert "%s"
      ⟨7, Template.compile "%q"⟩).1 = false := by rfl
  have hcached : (accessAll { compiler := .overtaken } [.step (.lookup "%s")]).cache.get? "%s" =
      some ⟨0, Template.compile "%s"⟩ := by rfl
  refine ⟨hrefused, (hinsert _ _).2 hrefused, hcached, hlookup _ _ hcached _ ?_⟩
  intro a ha
  simp only [List.mem_cons, List.not_mem_nil, or_false] at ha
  rcases ha with rfl | rfl | rfl <;> rfl

end Registry

end PercentFormat
