import Mathlib.Algebra.GroupWithZero.Nat
import Mathlib.Data.List.Count
import PercentFormat.Proofs.Caching.Counting

/-!
# The books of a registry

Every step counts some metrics. All metrics of a run are read off the record of what its steps
counted, and the size of the cache off the promotions in the record and the inserts past it.
-/

namespace PercentFormat

namespace Metrics

theorem get_count (ms : Metrics) (m k : Metric) :
    (ms.count m).get k = ms.get k + if m = k then 1 else 0 := by
  cases m <;> cases k <;> simp [count, get]

theorem get_foldl_count (ms : Metrics) (record : List Metric) (k : Metric) :
    (record.foldl count ms).get k = ms.get k + .ofNat (record.count k) := by
  induction record generalizing ms with
  | nil => simp
  | cons m record ih =>
    rw [List.foldl_cons, ih, get_count, List.count_cons, UInt64.ofNat_add]
    by_cases h : m = k
    · simp only [h, if_true, beq_self_eq_true]
      rw [UInt64.add_assoc, UInt64.add_comm 1]
      rfl
    · simp [h]

end Metrics

namespace Registry

/-! ## What a lookup counts -/

/-- Whether a lookup comes to insert what it compiled. -/
def promotes (r : Registry) (f : String) : Bool :=
  (r.cache.get? f).isNone && !r.threshold.isDisabled &&
    (r.threshold.isAlways || decide (r.threshold.misses < (r.counters.bump f).1))

/-- The cache that a lookup comes to with its template: someone else may have been faster. -/
def disturbed (r : Registry) (f : String) : Cache Compiled :=
  match r.cache.get? f, r.compiler.rival r.made f with
  | none, some t => (r.cache.insert f ⟨r.made, t⟩).2
  | _, _ => r.cache

/-- The metrics that a lookup counts, in their order. -/
def noted (r : Registry) (f : String) : List Metric :=
  if (r.cache.get? f).isSome then [.lookups, .hits]
  else if r.promotes f then
    [.lookups, .misses,
      if ((r.disturbed f).get? f).isNone then .promotions else .duplicatePromotions]
  else [.lookups, .misses]

section

variable {r s : Registry} {f : String} {c : Compiled}

theorem disturbed_of_cached (h : r.cache.get? f = some c) : r.disturbed f = r.cache := by
  rw [disturbed, h]

theorem disturbed_of_missing (h : r.cache.get? f = none) :
    r.disturbed f = (r.compiling f).2.cache := by
  rw [compiling_cache, disturbed, h]
  cases r.compiler.rival r.made f <;> rfl

theorem on_of_eager (h : r.threshold.isAlways = true) : r.threshold.isDisabled = false := by
  simp only [Threshold.isAlways, decide_eq_true_eq] at h
  rw [h]
  rfl

/-- A lookup inserts its template into the cache that it comes to, or leaves that as it is. -/
theorem Outcome.cache (o : Outcome r f c s) :
    s.cache = if r.promotes f then ((r.disturbed f).insert f c).2 else r.disturbed f := by
  cases o with
  | hit cached => simp [promotes, cached, disturbed_of_cached cached, count]
  | passed missing off => simp [promotes, off, disturbed_of_missing missing]
  | counted missing on counts few =>
    have hfew := UInt64.not_lt.mpr few
    simp [promotes, counts, hfew, disturbed_of_missing missing, counting]
  | promoted missing on counts many =>
    simp [promotes, missing, on, many, disturbed_of_missing missing, counting]
  | always missing eager =>
    simp [promotes, missing, on_of_eager eager, eager, disturbed_of_missing missing]

theorem Outcome.metrics (o : Outcome r f c s) :
    s.metrics = (r.noted f).foldl Metrics.count r.metrics := by
  cases o with
  | hit cached => simp [noted, cached, count]
  | passed missing off => simp [noted, promotes, missing, off]
  | counted missing on counts few =>
    have hfew := UInt64.not_lt.mpr few
    simp [noted, promotes, missing, counts, hfew, counting]
  | promoted missing on counts many =>
    simp [noted, promotes, missing, on, many, disturbed_of_missing missing, counting]
  | always missing eager =>
    simp [noted, promotes, missing, on_of_eager eager, eager, disturbed_of_missing missing]

end

/-! ## Steps -/

/-- The metrics that a step counts. -/
def recordOf (r : Registry) : Event → List Metric
  | .lookup f => r.noted f
  | _ => []

/-- The answers to the inserts of a step that are no promotions: the direct ones, and those of
someone else while a format is compiled. -/
def directOf (r : Registry) : Event → List Bool
  | .insert f t => [(r.insert f t).1]
  | .lookup f =>
    match r.cache.get? f, r.compiler.rival r.made f with
    | none, some t => [(r.insert f t).1]
    | _, _ => []
  | _ => []

theorem metrics_apply (r : Registry) (e : Event) :
    (r.apply e).metrics = (r.recordOf e).foldl Metrics.count r.metrics := by
  cases e with
  | lookup f => exact (r.lookup_outcome f).metrics
  | _ => rfl

theorem size_disturbed (r : Registry) (f : String) :
    (r.disturbed f).size = r.cache.size + (r.directOf (.lookup f)).count true := by
  cases hc : r.cache.get? f with
  | some c => simp [disturbed, directOf, hc]
  | none =>
    cases hr : r.compiler.rival r.made f with
    | none => simp [disturbed, directOf, hc, hr]
    | some t =>
      simp [disturbed, directOf, hc, hr, Cache.size_insert, insert, make, Cache.insert_fst]

theorem count_noted_promotions (r : Registry) (f : String) :
    (r.noted f).count .promotions =
      if r.promotes f && ((r.disturbed f).get? f).isNone then 1 else 0 := by
  unfold noted
  split
  · next hc =>
    have hp : r.promotes f = false := by simp [promotes, Option.isNone_eq_false_iff.mpr hc]
    rw [hp]
    rfl
  · cases r.promotes f with
    | false => rfl
    | true => cases ((r.disturbed f).get? f).isNone <;> rfl

/-- Between purges a cache grows by the promotions and by the direct inserts that find their
format free. -/
theorem size_apply (r : Registry) {e : Event} (h : e ≠ .purge) :
    (r.apply e).cache.size =
      r.cache.size + (r.directOf e).count true + (r.recordOf e).count .promotions := by
  cases e with
  | lookup f =>
    rw [← size_disturbed, apply, (r.lookup_outcome f).cache, recordOf, count_noted_promotions]
    cases r.promotes f with
    | false => simp
    | true => simp [Cache.size_insert]
  | setThreshold t => rfl
  | purge => exact absurd rfl h
  | bump f => rfl
  | insert f t =>
    have hinsert : (r.insert f t).1 = (r.cache.get? f).isNone := Cache.insert_fst ..
    have hsize : (r.apply (.insert f t)).cache.size =
        r.cache.size + if (r.cache.get? f).isNone then 1 else 0 := Cache.size_insert ..
    rw [hsize, directOf, hinsert]
    cases (r.cache.get? f).isNone <;> rfl

/-- A lookup is a hit or a miss, and only a miss promotes. -/
structure Balanced (record : List Metric) : Prop where
  lookups : record.count .lookups = record.count .hits + record.count .misses
  promotions : record.count .promotions + record.count .duplicatePromotions ≤
    record.count .misses

theorem Balanced.append {before behind : List Metric} (h : Balanced before) (h' : Balanced behind) :
    Balanced (before ++ behind) := by
  obtain ⟨hl, hp⟩ := h
  obtain ⟨hl', hp'⟩ := h'
  refine ⟨?_, ?_⟩
  · simp only [List.count_append]
    omega
  · simp only [List.count_append]
    omega

theorem balanced_nil : Balanced [] := ⟨rfl, Nat.le_refl 0⟩

theorem noted_cases (r : Registry) (f : String) :
    r.noted f = [.lookups, .hits] ∨ r.noted f = [.lookups, .misses] ∨
      r.noted f = [.lookups, .misses, .promotions] ∨
      r.noted f = [.lookups, .misses, .duplicatePromotions] := by
  unfold noted
  split_ifs <;> simp

theorem balanced_recordOf (r : Registry) (e : Event) : Balanced (r.recordOf e) := by
  cases e with
  | lookup f =>
    rw [recordOf]
    rcases r.noted_cases f with h | h | h | h <;> rw [h] <;> exact ⟨by decide, by decide⟩
  | _ => exact balanced_nil

theorem count_recordOf_le (r : Registry) (e : Event) (m : Metric) :
    (r.recordOf e).count m ≤ 1 := by
  cases e with
  | lookup f =>
    rw [recordOf]
    rcases r.noted_cases f with h | h | h | h <;> rw [h] <;> cases m <;> decide
  | _ => exact Nat.zero_le 1

/-! ## Runs -/

def record (r : Registry) : List Event → List Metric
  | [] => []
  | e :: events => r.recordOf e ++ (r.apply e).record events

def direct (r : Registry) : List Event → List Bool
  | [] => []
  | e :: events => r.directOf e ++ (r.apply e).direct events

theorem record_append (r : Registry) (before behind : List Event) :
    r.record (before ++ behind) = r.record before ++ (r.run before).record behind := by
  induction before generalizing r with
  | nil => rfl
  | cons e before ih => rw [List.cons_append, record, record, ih, List.append_assoc]; rfl

theorem metrics_run (r : Registry) (events : List Event) :
    (r.run events).metrics = (r.record events).foldl Metrics.count r.metrics := by
  induction events generalizing r with
  | nil => rfl
  | cons e events ih =>
    rw [record, List.foldl_append, ← metrics_apply]
    exact ih (r.apply e)

theorem balanced_record (r : Registry) (events : List Event) : Balanced (r.record events) := by
  induction events generalizing r with
  | nil => exact balanced_nil
  | cons e events ih => exact (r.balanced_recordOf e).append (ih (r.apply e))

theorem count_record_le (r : Registry) (events : List Event) (m : Metric) :
    (r.record events).count m ≤ events.length := by
  induction events generalizing r with
  | nil => exact Nat.le_refl 0
  | cons e events ih =>
    have hstep := r.count_recordOf_le e m
    have hrest := ih (r.apply e)
    rw [record, List.count_append, List.length_cons]
    omega

theorem size_run (r : Registry) {events : List Event} (h : .purge ∉ events) :
    (r.run events).cache.size =
      r.cache.size + (r.direct events).count true + (r.record events).count .promotions := by
  induction events generalizing r with
  | nil => rfl
  | cons e events ih =>
    simp only [List.mem_cons, not_or] at h
    have hsize : (r.run (e :: events)).cache.size = _ := ih (r.apply e) h.2
    rw [hsize, r.size_apply (Ne.symm h.1), direct, record, List.count_append, List.count_append]
    omega

/-! ## The books -/

/-- A new registry after some steps. -/
def after (c : Compiler) (t : Threshold) (events : List Event) : Registry :=
  Registry.run { compiler := c, threshold := t } events

/-- All metrics of a registry since it was made, as long as they fit into 64 bits. -/
theorem toNat_get_metrics {c : Compiler} {t : Threshold} {events : List Event}
    (h : events.length < 2 ^ 64) (m : Metric) :
    ((after c t events).metrics.get m).toNat =
      (Registry.record { compiler := c, threshold := t } events).count m := by
  have hle := count_record_le { compiler := c, threshold := t } events m
  have hzero : Metrics.get {} m = 0 := by cases m <;> rfl
  rw [after, metrics_run, Metrics.get_foldl_count, hzero, UInt64.zero_add,
    UInt64.toNat_ofNat_of_lt' (Nat.lt_of_le_of_lt hle h)]

theorem size_after_purge {c : Compiler} {t : Threshold} {events : List Event}
    (h : events = [] ∨ events.getLast? = some .purge) : (after c t events).cache.size = 0 := by
  rcases h with rfl | h
  · rfl
  · obtain ⟨before, rfl⟩ := List.getLast?_eq_some_iff.mp h
    rw [after, run_concat]
    rfl

theorem isCached_lookup_of_promotes {r : Registry} {f : String} (h : r.promotes f = true) :
    (r.lookup f).2.isCached f = true := by
  rw [isCached, (r.lookup_outcome f).cache, if_pos h, Cache.get?_insert, if_pos rfl]
  rfl

theorem entries_insert (c : Cache Compiled) (f : String) (v : Compiled) :
    (c.insert f v).2.entries =
      c.entries ++ if (c.get? f).isNone then [(f, v)] else [] := by
  unfold Cache.insert
  cases h : c.get? f <;> simp

/-- What a lookup that gives `c` does to the cache and to the counts of promotions. -/
structure Booked (r s : Registry) (f : String) (c : Compiled) : Prop where
  adds : ∃ added, s.cache.entries = (r.disturbed f).entries ++ added ∧ added.length ≤ 1 ∧
    ∀ e ∈ added, e = (f, c)
  inserted : r.promotes f = true → s.isCached f = true
  promoted : r.promotes f = true → (r.disturbed f).get? f = none →
    s.metrics.promotions = r.metrics.promotions + 1 ∧
      s.metrics.duplicatePromotions = r.metrics.duplicatePromotions
  overtaken : r.promotes f = true → ((r.disturbed f).get? f).isSome = true →
    s.metrics.promotions = r.metrics.promotions ∧
      s.metrics.duplicatePromotions = r.metrics.duplicatePromotions + 1
  spared : r.promotes f = false → s.cache = r.disturbed f ∧
    s.metrics.promotions = r.metrics.promotions ∧
      s.metrics.duplicatePromotions = r.metrics.duplicatePromotions
  eager : r.cache.get? f = none → r.threshold = .always → r.promotes f = true

theorem booked_lookup (r : Registry) (f : String) : Booked r (r.lookup f).2 f (r.lookup f).1 := by
  have ho := r.lookup_outcome f
  have hcache := ho.cache
  have hmetrics := ho.metrics
  have hmissing (h : r.promotes f = true) : (r.cache.get? f).isSome = false := by
    simp only [promotes, Bool.and_eq_true] at h
    rw [Option.isSome_eq_false_iff, h.1.1]
  refine ⟨?_, isCached_lookup_of_promotes, ?_, ?_, ?_, ?_⟩
  · rw [hcache]
    split
    · refine ⟨_, entries_insert .., ?_, ?_⟩
      · split <;> simp
      · split <;> simp
    · exact ⟨[], by simp, by simp, by simp⟩
  · intro h hfree
    rw [hmetrics, noted, hmissing h, if_neg (by simp), if_pos h, hfree]
    exact ⟨rfl, rfl⟩
  · intro h htaken
    obtain ⟨v, hv⟩ := Option.isSome_iff_exists.mp htaken
    rw [hmetrics, noted, hmissing h, if_neg (by simp), if_pos h, hv]
    exact ⟨rfl, rfl⟩
  · intro h
    refine ⟨by rw [hcache, h]; rfl, ?_⟩
    rw [hmetrics, noted, h]
    split <;> exact ⟨rfl, rfl⟩
  · intro hc ht
    rw [promotes, hc, ht]
    rfl

/-- The metrics add up, none ever falls, and the cache holds what was promoted or inserted directly
since the last purge. Each lookup keeps the books. -/
theorem books_consistent (c : Compiler) (t : Threshold) (events : List Event)
    (h : events.length < 2 ^ 64) :
    (after c t events).metrics.lookups.toNat =
        (after c t events).metrics.hits.toNat + (after c t events).metrics.misses.toNat ∧
      (after c t events).metrics.promotions.toNat +
          (after c t events).metrics.duplicatePromotions.toNat ≤
        (after c t events).metrics.misses.toNat ∧
      (∀ before behind, events = before ++ behind →
        (∀ m, (after c t before).metrics.get m ≤ (after c t events).metrics.get m) ∧
        (.purge ∉ behind → (before = [] ∨ before.getLast? = some .purge) →
          (after c t events).cache.size + (after c t before).metrics.promotions.toNat =
            (after c t events).metrics.promotions.toNat +
              ((after c t before).direct behind).count true)) ∧
      ∀ f, Booked (after c t events) ((after c t events).lookup f).2 f
        ((after c t events).lookup f).1 := by
  have hget := toNat_get_metrics (c := c) (t := t) h
  obtain ⟨hlookups, hpromotions⟩ := balanced_record { compiler := c, threshold := t } events
  refine ⟨?_, ?_, ?_, fun f => booked_lookup _ f⟩
  · rw [← hget, ← hget, ← hget] at hlookups
    exact hlookups
  · rw [← hget, ← hget, ← hget] at hpromotions
    exact hpromotions
  · rintro before behind rfl
    have hlength : before.length < 2 ^ 64 := by
      rw [List.length_append] at h
      omega
    have hbefore := toNat_get_metrics (c := c) (t := t) hlength
    have hrecord (m : Metric) :
        (Registry.record { compiler := c, threshold := t } (before ++ behind)).count m =
          (Registry.record { compiler := c, threshold := t } before).count m +
            ((after c t before).record behind).count m := by
      rw [record_append, List.count_append]
      rfl
    refine ⟨?_, ?_⟩
    · intro m
      rw [UInt64.le_iff_toNat_le, hget, hbefore, hrecord]
      exact Nat.le_add_right ..
    · intro hp hstart
      have hsize := (after c t before).size_run hp
      have hrun : (after c t before).run behind = after c t (before ++ behind) := by
        simp only [after, run, List.foldl_append]
      have hall := (hget .promotions).trans (hrecord .promotions)
      have hearlier := hbefore .promotions
      rw [size_after_purge hstart, hrun] at hsize
      simp only [Metrics.get] at hall hearlier
      omega

theorem books_consistent_overtaken :
    [Event.lookup "%s", .purge, .insert "a" (.compile "b"), .lookup "%s"].length < 2 ^ 64 ∧
      .purge ∉ [Event.insert "a" (.compile "b"), .lookup "%s"] ∧
      [Event.lookup "%s", .purge].getLast? = some .purge ∧
      (after .overtaken .always
        [.lookup "%s", .purge, .insert "a" (.compile "b"), .lookup "%s"]).metrics.misses.toNat = 2 ∧
      (after .overtaken .always
        [.lookup "%s", .purge, .insert "a" (.compile "b"), .lookup "%s"]).cache.size = 2 := by
  have hlength :
      [Event.lookup "%s", .purge, .insert "a" (.compile "b"), .lookup "%s"].length < 2 ^ 64 := by
    decide
  have hpurge : .purge ∉ [Event.insert "a" (.compile "b"), .lookup "%s"] := by simp
  have hlast : [Event.lookup "%s", .purge].getLast? = some .purge := rfl
  obtain ⟨hlookups, -, hruns, -⟩ := books_consistent .overtaken .always _ hlength
  have hsize := (hruns [.lookup "%s", .purge] _ rfl).2 hpurge (.inr hlast)
  have hlooked : (after .overtaken .always [.lookup "%s", .purge,
      .insert "a" (.compile "b"), .lookup "%s"]).metrics.lookups.toNat = 2 := by decide
  have hhits : (after .overtaken .always [.lookup "%s", .purge,
      .insert "a" (.compile "b"), .lookup "%s"]).metrics.hits.toNat = 0 := by decide
  have hpromotions : (after .overtaken .always [.lookup "%s", .purge,
      .insert "a" (.compile "b"), .lookup "%s"]).metrics.promotions.toNat = 0 := by decide
  have hearlier :
      (after .overtaken .always [.lookup "%s", .purge]).metrics.promotions.toNat = 0 := by decide
  have hdirect : ((after .overtaken .always [.lookup "%s", .purge]).direct
      [.insert "a" (.compile "b"), .lookup "%s"]).count true = 2 := by decide
  exact ⟨hlength, hpurge, hlast, by omega, by omega⟩

end Registry

end PercentFormat
