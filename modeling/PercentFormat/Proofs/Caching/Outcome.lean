import PercentFormat.Caching.Registry
import PercentFormat.Proofs.Caching.Entries

/-!
# Outcomes of a lookup

A lookup ends in one of five ways. What it does to a registry is said here once; invariants of
registries are proved by cases on the outcome.
-/

namespace PercentFormat.Registry

/-- A format that is not cached is compiled: the object and the registry behind it. -/
def compiling (r : Registry) (f : String) : Compiled × Registry :=
  ((r.count .lookups).count .misses).compile f

theorem compiling_template (r : Registry) (f : String) :
    (r.compiling f).1.template = r.compiler.compile f := by
  simp only [compiling, compile, make, count]
  split <;> rfl

theorem compiling_cache (r : Registry) (f : String) :
    (r.compiling f).2.cache =
      match r.compiler.rival r.made f with
      | some t => (r.cache.insert f ⟨r.made, t⟩).2
      | none => r.cache := by
  cases h : r.compiler.rival r.made f <;> simp [compiling, compile, make, count, insert, h]

@[simp] theorem compiling_counters (r : Registry) (f : String) :
    (r.compiling f).2.counters = r.counters := by
  simp only [compiling, compile, make, count]
  split <;> rfl

@[simp] theorem compiling_threshold (r : Registry) (f : String) :
    (r.compiling f).2.threshold = r.threshold := by
  simp only [compiling, compile, make, count]
  split <;> rfl

@[simp] theorem compiling_compiler (r : Registry) (f : String) :
    (r.compiling f).2.compiler = r.compiler := by
  simp only [compiling, compile, make, count]
  split <;> rfl

@[simp] theorem compiling_metrics (r : Registry) (f : String) :
    (r.compiling f).2.metrics = (r.metrics.count .lookups).count .misses := by
  simp only [compiling, compile, make, count]
  split <;> rfl

@[simp] theorem promote_cache (r : Registry) (f : String) (c : Compiled) :
    (r.promote f c).cache = (r.cache.insert f c).2 := by
  by_cases h : r.threshold.isAlways = true <;> simp [promote, count, h]

@[simp] theorem promote_counters (r : Registry) (f : String) (c : Compiled) :
    (r.promote f c).counters =
      if r.threshold.isAlways then r.counters else r.counters.erase f := by
  by_cases h : r.threshold.isAlways = true <;> simp [promote, count, h]

@[simp] theorem promote_compiler (r : Registry) (f : String) (c : Compiled) :
    (r.promote f c).compiler = r.compiler := by
  by_cases h : r.threshold.isAlways = true <;> simp [promote, count, h]

@[simp] theorem promote_threshold (r : Registry) (f : String) (c : Compiled) :
    (r.promote f c).threshold = r.threshold := by
  by_cases h : r.threshold.isAlways = true <;> simp [promote, count, h]

@[simp] theorem promote_metrics (r : Registry) (f : String) (c : Compiled) :
    (r.promote f c).metrics =
      r.metrics.count (if (r.cache.get? f).isNone then .promotions else .duplicatePromotions) := by
  by_cases h : r.threshold.isAlways = true <;> simp [promote, count, h, Cache.insert_fst]

/-- The registry when a miss has been counted as well. -/
def counting (r : Registry) (f : String) : Registry :=
  { (r.compiling f).2 with counters := (r.counters.bump f).2 }

/-- What a lookup gives and the registry that it leaves. -/
inductive Outcome (r : Registry) (f : String) : Compiled → Registry → Prop
  | hit {c : Compiled} (cached : r.cache.get? f = some c) :
      Outcome r f c ((r.count .lookups).count .hits)
  | passed (missing : r.cache.get? f = none) (off : r.threshold.isDisabled = true) :
      Outcome r f (r.compiling f).1 (r.compiling f).2
  | counted (missing : r.cache.get? f = none) (on : r.threshold.isDisabled = false)
      (counts : r.threshold.isAlways = false)
      (few : (r.counters.bump f).1 ≤ r.threshold.misses) :
      Outcome r f (r.compiling f).1 (r.counting f)
  | promoted (missing : r.cache.get? f = none) (on : r.threshold.isDisabled = false)
      (counts : r.threshold.isAlways = false)
      (many : r.threshold.misses < (r.counters.bump f).1) :
      Outcome r f (r.compiling f).1 ((r.counting f).promote f (r.compiling f).1)
  | always (missing : r.cache.get? f = none) (eager : r.threshold.isAlways = true) :
      Outcome r f (r.compiling f).1 ((r.compiling f).2.promote f (r.compiling f).1)

theorem lookup_hit {r : Registry} {f : String} {c : Compiled} (h : r.cache.get? f = some c) :
    r.lookup f = (c, (r.count .lookups).count .hits) := by
  have h' : (r.count .lookups).cache.get? f = some c := h
  simp only [lookup, h']

theorem lookup_miss {r : Registry} {f : String} (h : r.cache.get? f = none) :
    r.lookup f =
      ((r.compiling f).1,
        if r.threshold.isDisabled then (r.compiling f).2
        else if r.threshold.isAlways then (r.compiling f).2.promote f (r.compiling f).1
        else if r.threshold.misses < (r.counters.bump f).1 then
          (r.counting f).promote f (r.compiling f).1
        else r.counting f) := by
  have h' : (r.count .lookups).cache.get? f = none := h
  have hc : ((r.count .lookups).count .misses).compile f = r.compiling f := rfl
  simp only [lookup, h', hc, compiling_threshold, miss, compiling_counters]
  split
  · rfl
  · split
    · rfl
    · simp only [counting, compiling_threshold, decide_eq_true_eq]

theorem lookup_outcome (r : Registry) (f : String) :
    Outcome r f (r.lookup f).1 (r.lookup f).2 := by
  cases h : r.cache.get? f with
  | some c =>
    rw [lookup_hit h]
    exact .hit h
  | none =>
    rw [lookup_miss h]
    split
    · next off => exact .passed h off
    · next on =>
      rw [Bool.not_eq_true] at on
      split
      · next eager => exact .always h eager
      · next counts =>
        rw [Bool.not_eq_true] at counts
        split
        · next many => exact .promoted h on counts many
        · next few => exact .counted h on counts (UInt64.not_lt.mp few)

theorem Outcome.compiler {r s : Registry} {f : String} {c : Compiled} (o : Outcome r f c s) :
    s.compiler = r.compiler := by
  cases o with
  | hit => rfl
  | passed => exact compiling_compiler r f
  | counted => exact compiling_compiler r f
  | promoted => rw [promote_compiler]; exact compiling_compiler r f
  | always => rw [promote_compiler, compiling_compiler]

theorem Outcome.threshold {r s : Registry} {f : String} {c : Compiled} (o : Outcome r f c s) :
    s.threshold = r.threshold := by
  cases o with
  | hit => rfl
  | passed => exact compiling_threshold r f
  | counted => exact compiling_threshold r f
  | promoted => rw [promote_threshold]; exact compiling_threshold r f
  | always => rw [promote_threshold, compiling_threshold]

/-- A lookup does not touch what belongs to other formats. -/
theorem Outcome.entries_frame {r s : Registry} {f g : String} {c : Compiled}
    (o : Outcome r g c s) (hg : f ≠ g) :
    s.cache.get? f = r.cache.get? f ∧ s.counters.count? f = r.counters.count? f := by
  have hcache : (r.compiling g).2.cache.get? f = r.cache.get? f := by
    rw [compiling_cache]
    split
    · rw [Cache.get?_insert, if_neg hg]
    · rfl
  have hinsert (c : Compiled) :
      ((r.compiling g).2.cache.insert g c).2.get? f = r.cache.get? f := by
    rw [Cache.get?_insert, if_neg hg, hcache]
  have hbump : (r.counters.bump g).2.count? f = r.counters.count? f := by
    rw [Counters.count?_bump, if_neg hg]
  cases o with
  | hit => exact ⟨rfl, rfl⟩
  | passed => exact ⟨hcache, congrArg (·.count? f) (compiling_counters r g)⟩
  | counted => exact ⟨hcache, hbump⟩
  | promoted missing on counts many =>
    refine ⟨by rw [promote_cache]; exact hinsert _, ?_⟩
    have ht : (r.counting g).threshold.isAlways = false := by
      rw [← counts, ← compiling_threshold r g]
      rfl
    rw [promote_counters, ht, if_neg (by simp), Counters.count?_erase, if_neg hg]
    exact hbump
  | always missing eager =>
    refine ⟨by rw [promote_cache]; exact hinsert _, ?_⟩
    rw [promote_counters, compiling_threshold, if_pos eager, compiling_counters]

end PercentFormat.Registry
