import Mathlib.Algebra.BigOperators.Group.Finset.Piecewise
import Mathlib.Algebra.Order.BigOperators.Group.Finset
import PercentFormat.Proofs.Caching.Counting
import PercentFormat.Proofs.Caching.Transparency

/-!
# The promotion schedule

How often a format was looked up decides what a new registry knows of it: up to the threshold its
count, then its template. The metrics are sums over the formats, so the order of the lookups does
not matter.
-/

namespace PercentFormat

/-! ## Tallies -/

/-- What the numbers of lookups give, summed over the formats. -/
def tally (fs : List String) (g : ℕ → ℕ) : ℕ := ∑ f ∈ fs.toFinset, g (fs.count f)

theorem tally_concat {fs : List String} {f : String} {g : ℕ → ℕ} {d : ℕ} (hzero : g 0 = 0)
    (hd : g (fs.count f + 1) = g (fs.count f) + d) : tally (fs ++ [f]) g = tally fs g + d := by
  have hsub : fs.toFinset ⊆ (fs ++ [f]).toFinset := by
    intro k hk
    simp only [List.mem_toFinset, List.mem_append] at hk ⊢
    exact .inl hk
  -- A format that was not looked up before adds nothing to the old sum.
  have hold : tally fs g = ∑ k ∈ (fs ++ [f]).toFinset, g (fs.count k) := by
    refine Finset.sum_subset hsub ?_
    intro k _ hk
    rw [List.mem_toFinset] at hk
    rw [List.count_eq_zero_of_not_mem hk, hzero]
  have hnew (k : String) :
      g ((fs ++ [f]).count k) = g (fs.count k) + if k = f then d else 0 := by
    by_cases hk : k = f
    · subst hk
      rw [List.count_append, List.count_singleton_self, if_pos rfl, hd]
    · rw [List.count_append, List.count_singleton, if_neg (by simpa using Ne.symm hk),
        if_neg hk]
      rfl
  have hmem : f ∈ (fs ++ [f]).toFinset := by simp
  rw [hold, tally, Finset.sum_congr rfl (fun k _ => hnew k), Finset.sum_add_distrib,
    Finset.sum_ite_eq', if_pos hmem]

theorem tally_perm {fs gs : List String} (h : gs.Perm fs) (g : ℕ → ℕ) :
    tally gs g = tally fs g := by
  have hmem : gs.toFinset = fs.toFinset := List.toFinset_eq_of_perm gs fs h
  rw [tally, hmem]
  exact Finset.sum_congr rfl fun f _ => by rw [h.count_eq]

theorem tally_le {g : ℕ → ℕ} (hg : ∀ n, g n ≤ n) (fs : List String) :
    tally fs g ≤ fs.length := by
  rw [← List.sum_toFinset_count_eq_length fs]
  exact Finset.sum_le_sum fun f _ => hg (fs.count f)

namespace Registry

/-- The number of misses that a format must exceed. -/
def limit (r : Registry) : ℕ := r.threshold.misses.toNat

/-- A registry that counts all misses up to its threshold. -/
structure Active (r : Registry) : Prop where
  compiler : r.compiler = .standard
  on : r.threshold.isDisabled = false

/-- What a registry knows of a format after `n` lookups of it. -/
structure Known (r : Registry) (f : String) (n : ℕ) : Prop where
  cached : r.isCached f = decide (r.limit < n)
  count? : r.counters.count? f = if 0 < n ∧ n ≤ r.limit then some (.ofNat n) else none

section

variable {r : Registry} {f : String} {n : ℕ}

theorem limit_lt (h : r.threshold.isDisabled = false) : r.limit < UInt64.size - 1 := by
  have hlt := r.threshold.misses.toNat_lt
  have hne : r.limit ≠ UInt64.size - 1 := by
    intro he
    have hd : r.threshold.misses = 18446744073709551615 := UInt64.toNat_inj.mp he
    have ht : r.threshold = .disabled := by
      rw [Threshold.disabled, ← hd]
    simp [Threshold.isDisabled, ht] at h
  simp only [limit] at hne ⊢
  simp only [UInt64.size] at hne ⊢
  omega

theorem isAlways_iff : r.threshold.isAlways = true ↔ r.limit = 0 := by
  simp only [Threshold.isAlways, decide_eq_true_eq, limit]
  constructor
  · intro h
    rw [h]
    rfl
  · intro h
    have hm : r.threshold.misses = 0 := UInt64.toNat_inj.mp h
    rw [Threshold.always, ← hm]

theorem Known.missing (h : Known r f n) (hn : n ≤ r.limit) : r.cache.get? f = none := by
  have hc := h.cached
  rw [decide_eq_false (Nat.not_lt.mpr hn), isCached, Option.isSome_eq_false_iff] at hc
  simpa using hc

/-- The counter of a format that is not cached yet does not overflow. -/
theorem Known.bump (h : Known r f n) (hn : n ≤ r.limit) (hlimit : r.limit < UInt64.size - 1) :
    (r.counters.bump f).1 = .ofNat (n + 1) := by
  rw [Counters.bump_fst, h.count?]
  by_cases hpos : 0 < n
  · have hmax : UInt64.ofNat n ≠ 18446744073709551615 := by
      intro he
      have hval := congrArg UInt64.toNat he
      rw [UInt64.toNat_ofNat_of_lt' (by omega)] at hval
      have hlast : (18446744073709551615 : UInt64).toNat = UInt64.size - 1 := rfl
      omega
    rw [if_pos ⟨hpos, hn⟩, Option.map_some, Option.getD_some, Counters.succ, if_neg hmax,
      UInt64.ofNat_add]
    rfl
  · obtain rfl : n = 0 := by omega
    rw [if_neg (by omega)]
    rfl

theorem Known.bump_toNat (h : Known r f n) (hn : n ≤ r.limit)
    (hlimit : r.limit < UInt64.size - 1) : (r.counters.bump f).1.toNat = n + 1 := by
  rw [h.bump hn hlimit, UInt64.toNat_ofNat_of_lt' (by omega)]

/-! ## One lookup -/

/-- A format that has been promoted is found. -/
theorem Known.lookup_late (h : Known r f n) (hn : r.limit < n) :
    (r.lookup f).2 = (r.count .lookups).count .hits := by
  have hc : (r.cache.get? f).isSome = true := by
    rw [← isCached, h.cached, decide_eq_true hn]
  obtain ⟨c, hc⟩ := Option.isSome_iff_exists.mp hc
  rw [lookup_hit hc]

/-- A format that was missed too seldom is counted. -/
theorem Known.lookup_early (h : Known r f n) (ha : r.Active) (hn : n < r.limit) :
    (r.lookup f).2 = r.counting f := by
  have hlimit := limit_lt ha.on
  have hcounts : ¬ r.threshold.isAlways = true := by
    rw [isAlways_iff]
    omega
  have hfew : ¬ r.threshold.misses < (r.counters.bump f).1 := by
    rw [UInt64.lt_iff_toNat_lt, h.bump_toNat hn.le hlimit, ← limit]
    omega
  rw [lookup_miss (h.missing hn.le), ha.on, if_neg (by simp), if_neg hcounts, if_neg hfew]

/-- One miss more than the threshold, and a format is promoted. -/
theorem Known.lookup_due (h : Known r f n) (ha : r.Active) (hn : n = r.limit) :
    (r.lookup f).2 =
      (if r.threshold.isAlways then (r.compiling f).2 else r.counting f).promote f
        (r.compiling f).1 := by
  have hlimit := limit_lt ha.on
  have hmany : r.threshold.misses < (r.counters.bump f).1 := by
    rw [UInt64.lt_iff_toNat_lt, h.bump_toNat hn.le hlimit, ← limit]
    omega
  rw [lookup_miss (h.missing hn.le), ha.on, if_neg (by simp), if_pos hmany]
  split <;> rfl

theorem Active.lookup (h : r.Active) (f : String) : (r.lookup f).2.Active := by
  have ho := r.lookup_outcome f
  exact ⟨ho.compiler.trans h.compiler, ho.threshold ▸ h.on⟩

theorem limit_lookup (r : Registry) (f : String) : (r.lookup f).2.limit = r.limit := by
  rw [limit, (r.lookup_outcome f).threshold, limit]

/-- The registry to which a due format is promoted, seen from outside. -/
theorem Known.promoting (h : Known r f n) (ha : r.Active) (hn : n = r.limit) :
    (r.lookup f).2.cache = (r.cache.insert f (r.compiling f).1).2 ∧
      (r.lookup f).2.counters.count? f = none ∧
      (r.lookup f).2.metrics =
        ((r.metrics.count .lookups).count .misses).count .promotions := by
  have hcache := compiling_cache_standard ha.compiler f
  have hmissing := h.missing hn.le
  rw [h.lookup_due ha hn, promote_cache, promote_counters, promote_metrics]
  by_cases hz : r.threshold.isAlways = true
  · have hcount : r.counters.count? f = none := by
      rw [h.count?, if_neg]
      rw [isAlways_iff] at hz
      omega
    rw [if_pos hz, hcache, hmissing, compiling_threshold, if_pos hz, compiling_counters,
      compiling_metrics]
    exact ⟨rfl, hcount, rfl⟩
  · have ht : (r.counting f).threshold = r.threshold := compiling_threshold r f
    have hc : (r.counting f).cache = r.cache := hcache
    have hm : (r.counting f).metrics = (r.metrics.count .lookups).count .misses :=
      compiling_metrics r f
    rw [if_neg hz, ht, if_neg hz, hc, hm, hmissing, Counters.count?_erase, if_pos rfl]
    exact ⟨rfl, rfl, rfl⟩

theorem Known.lookup (h : Known r f n) (ha : r.Active) : Known (r.lookup f).2 f (n + 1) := by
  have hcached := h.cached
  have hcount := h.count?
  rcases Nat.lt_trichotomy n r.limit with hn | hn | hn
  · have hc : (r.counting f).cache = r.cache := compiling_cache_standard ha.compiler f
    have hlimit := limit_lookup r f
    rw [h.lookup_early ha hn] at hlimit ⊢
    refine ⟨?_, ?_⟩
    · rw [isCached, hc, ← isCached, hcached, hlimit, decide_eq_false (by omega),
        decide_eq_false (by omega)]
    · rw [hlimit, if_pos (by omega), counting, Counters.count?_bump, if_pos rfl,
        ← Counters.bump_fst, h.bump hn.le (limit_lt ha.on)]
  · obtain ⟨hcache, hnone, -⟩ := h.promoting ha hn
    refine ⟨?_, ?_⟩
    · rw [isCached, hcache, Cache.get?_insert, if_pos rfl, limit_lookup, Option.isSome_some,
        decide_eq_true (by omega)]
    · rw [hnone, limit_lookup, if_neg (by omega)]
  · have hlimit := limit_lookup r f
    rw [h.lookup_late hn] at hlimit ⊢
    refine ⟨?_, ?_⟩
    · rw [hlimit, decide_eq_true (by omega)]
      exact hcached.trans (decide_eq_true hn)
    · rw [hlimit, if_neg (by omega)]
      exact hcount.trans (if_neg (by omega))

/-- Lookups of other formats change nothing. -/
theorem Known.frame {g : String} (h : Known r f n) (hg : f ≠ g) : Known (r.lookup g).2 f n := by
  obtain ⟨hcache, hcount⟩ := (r.lookup_outcome g).entries_frame hg
  refine ⟨?_, ?_⟩
  · rw [isCached, hcache, limit_lookup]
    exact h.cached
  · rw [hcount, limit_lookup]
    exact h.count?

end

/-! ## All lookups -/

/-- The metrics when formats have been looked up from the start on. -/
def scheduled (limit : ℕ) (fs : List String) : Metrics where
  lookups := .ofNat fs.length
  hits := .ofNat (tally fs fun n => n - (limit + 1))
  misses := .ofNat (tally fs fun n => min n (limit + 1))
  promotions := .ofNat (tally fs fun n => if limit < n then 1 else 0)

theorem scheduled_concat {limit : ℕ} {fs : List String} {f : String} (hit miss due : ℕ)
    (hhit : fs.count f + 1 - (limit + 1) = fs.count f - (limit + 1) + hit)
    (hmiss : min (fs.count f + 1) (limit + 1) = min (fs.count f) (limit + 1) + miss)
    (hdue : (if limit < fs.count f + 1 then 1 else 0) =
      (if limit < fs.count f then 1 else 0) + due) :
    scheduled limit (fs ++ [f]) =
      { lookups := (scheduled limit fs).lookups + 1
        hits := (scheduled limit fs).hits + .ofNat hit
        misses := (scheduled limit fs).misses + .ofNat miss
        promotions := (scheduled limit fs).promotions + .ofNat due } := by
  have hh := tally_concat (g := fun n => n - (limit + 1)) (Nat.zero_sub _) hhit
  have hm := tally_concat (g := fun n => min n (limit + 1)) (Nat.zero_min _) hmiss
  have hd := tally_concat (g := fun n => if limit < n then 1 else 0)
    (if_neg (Nat.not_lt_zero _)) hdue
  simp only [scheduled, hh, hm, hd, List.length_append, List.length_singleton, UInt64.ofNat_add]
  rfl

/-- A new registry that has been asked for formats and for nothing else. -/
structure Scheduled (r : Registry) (fs : List String) : Prop extends Active r where
  known : ∀ f, Known r f (fs.count f)
  metrics : r.metrics = scheduled r.limit fs
  size : r.cache.size = tally fs fun n => if r.limit < n then 1 else 0

section

variable {r : Registry} {fs : List String}

theorem Scheduled.metrics_lookup (h : r.Scheduled fs) (f : String) :
    (r.lookup f).2.metrics = scheduled r.limit (fs ++ [f]) := by
  have hf := h.known f
  rcases Nat.lt_trichotomy (fs.count f) r.limit with hn | hn | hn
  · rw [hf.lookup_early h.toActive hn, counting, compiling_metrics, h.metrics,
      scheduled_concat 0 1 0 (by omega) (by omega)
        (by rw [if_neg (by omega), if_neg (by omega)])]
    simp [Metrics.count, scheduled]
  · obtain ⟨-, -, hm⟩ := hf.promoting h.toActive hn
    rw [hm, h.metrics, scheduled_concat 0 1 1 (by omega) (by omega)
      (by rw [if_pos (by omega), if_neg (by omega)])]
    simp [Metrics.count, scheduled]
  · rw [hf.lookup_late hn,
      scheduled_concat 1 0 0 (by omega) (by omega)
        (by rw [if_pos (by omega), if_pos hn]), ← h.metrics]
    simp [Metrics.count, count, h.metrics, scheduled]

theorem Scheduled.size_lookup (h : r.Scheduled fs) (f : String) :
    (r.lookup f).2.cache.size = tally (fs ++ [f]) fun n => if r.limit < n then 1 else 0 := by
  have hf := h.known f
  have hconcat (d : ℕ) (hd : (if r.limit < fs.count f + 1 then 1 else 0) =
      (if r.limit < fs.count f then 1 else 0) + d) :
      tally (fs ++ [f]) (fun n => if r.limit < n then 1 else 0) =
        tally fs (fun n => if r.limit < n then 1 else 0) + d :=
    tally_concat (if_neg (Nat.not_lt_zero _)) hd
  rcases Nat.lt_trichotomy (fs.count f) r.limit with hn | hn | hn
  · have hc : (r.counting f).cache = r.cache := compiling_cache_standard h.compiler f
    rw [hf.lookup_early h.toActive hn, hc, h.size, hconcat 0]
    · rfl
    · rw [if_neg (by omega), if_neg (by omega)]
  · obtain ⟨hc, -, -⟩ := hf.promoting h.toActive hn
    rw [hc, Cache.size_insert, hf.missing hn.le, h.size, hconcat 1]
    · rfl
    · rw [if_pos (by omega), if_neg (by omega)]
  · rw [hf.lookup_late hn, hconcat 0]
    · exact h.size
    · rw [if_pos (by omega), if_pos hn]

theorem Scheduled.lookup (h : r.Scheduled fs) (f : String) :
    (r.lookup f).2.Scheduled (fs ++ [f]) := by
  refine ⟨h.toActive.lookup f, ?_, ?_, ?_⟩
  · intro g
    by_cases hg : g = f
    · subst hg
      rw [List.count_append, List.count_singleton_self]
      exact (h.known g).lookup h.toActive
    · rw [List.count_append, List.count_singleton, if_neg (by simpa using Ne.symm hg)]
      exact (h.known g).frame hg
  · rw [limit_lookup]
    exact h.metrics_lookup f
  · rw [limit_lookup]
    exact h.size_lookup f

end

/-- A new registry after lookups. -/
def afterLookups (t : Threshold) (fs : List String) : Registry :=
  Registry.run { threshold := t } (fs.map .lookup)

theorem afterLookups_concat (t : Threshold) (fs : List String) (f : String) :
    afterLookups t (fs ++ [f]) = ((afterLookups t fs).lookup f).2 := by
  rw [afterLookups, List.map_append, List.map_singleton, run_concat]
  rfl

theorem afterLookups_threshold (t : Threshold) (fs : List String) :
    (afterLookups t fs).threshold = t := by
  induction fs using List.reverseRecOn with
  | nil => rfl
  | append_singleton fs f ih =>
    rw [afterLookups_concat, ((afterLookups t fs).lookup_outcome f).threshold, ih]

theorem scheduled_afterLookups {t : Threshold} (ht : t.isDisabled = false) (fs : List String) :
    (afterLookups t fs).Scheduled fs := by
  induction fs using List.reverseRecOn with
  | nil =>
    refine ⟨⟨rfl, ht⟩, ?_, rfl, rfl⟩
    intro f
    exact ⟨rfl, rfl⟩
  | append_singleton fs f ih =>
    rw [afterLookups_concat]
    exact ih.lookup f

theorem coherent_afterLookups (t : Threshold) (fs : List String) :
    (afterLookups t fs).compiler = .standard ∧ (afterLookups t fs).Coherent := by
  induction fs using List.reverseRecOn with
  | nil => exact ⟨rfl, Cache.Coherent.empty⟩
  | append_singleton fs f ih =>
    have ho := (afterLookups t fs).lookup_outcome f
    rw [afterLookups_concat]
    refine ⟨ho.compiler.trans ih.1, ho.coherent ih.2 ?_⟩
    rw [ih.1]
    exact Compiler.faithful_standard

/-! ## Without promotion -/

/-- A registry that was disabled from the start on. -/
structure Idle (r : Registry) (n : ℕ) : Prop where
  compiler : r.compiler = .standard
  off : r.threshold.isDisabled = true
  cache : r.cache.entries = []
  counters : r.counters.entries = []
  metrics : r.metrics = { lookups := .ofNat n, misses := .ofNat n }

theorem Idle.lookup {r : Registry} {n : ℕ} (h : r.Idle n) (f : String) :
    (r.lookup f).2.Idle (n + 1) := by
  have hmissing : r.cache.get? f = none := by
    rw [Cache.get?, h.cache]
    rfl
  rw [lookup_miss hmissing, if_pos h.off]
  refine ⟨?_, ?_, ?_, ?_, ?_⟩
  · rw [compiling_compiler, h.compiler]
  · rw [compiling_threshold, h.off]
  · rw [compiling_cache_standard h.compiler, h.cache]
  · rw [compiling_counters, h.counters]
  · rw [compiling_metrics, h.metrics, UInt64.ofNat_add]
    rfl

theorem idle_afterLookups (fs : List String) :
    (afterLookups .disabled fs).Idle fs.length := by
  induction fs using List.reverseRecOn with
  | nil => exact ⟨rfl, rfl, rfl, rfl, rfl⟩
  | append_singleton fs f ih =>
    rw [afterLookups_concat, List.length_append]
    exact ih.lookup f

/-! ## The schedule -/

theorem Scheduled.counter {r : Registry} {fs : List String} (h : r.Scheduled fs) (f : String) :
    (r.counters.get f).toNat =
      if 0 < r.limit ∧ fs.count f ≤ r.limit then fs.count f else 0 := by
  have hlimit := limit_lt h.on
  have hcount : r.counters.get f = (r.counters.count? f).getD 0 := rfl
  rw [hcount, (h.known f).count?]
  by_cases hn : 0 < fs.count f ∧ fs.count f ≤ r.limit
  · rw [if_pos hn, if_pos (by omega), Option.getD_some, UInt64.toNat_ofNat_of_lt' (by omega)]
  · rw [if_neg hn, Option.getD_none]
    split
    · have hzero : fs.count f = 0 := by omega
      rw [hzero]
      rfl
    · rfl

theorem cached_template (t : Threshold) (fs : List String) (f : String) :
    ((afterLookups t fs).cache.get? f).map Compiled.template =
      if (afterLookups t fs).isCached f then some (Template.compile f) else none := by
  obtain ⟨hcompiler, hcoherent⟩ := coherent_afterLookups t fs
  rw [isCached]
  cases hc : (afterLookups t fs).cache.get? f with
  | none => rfl
  | some c =>
    have ht := hcoherent f c hc
    rw [hcompiler] at ht
    rw [Option.map_some, ht]
    rfl

theorem afterLookups_perm (t : Threshold) {fs gs : List String} (h : gs.Perm fs) :
    (afterLookups t gs).metrics = (afterLookups t fs).metrics ∧
      ∀ f, (afterLookups t gs).isCached f = (afterLookups t fs).isCached f ∧
        (afterLookups t gs).counters.count? f = (afterLookups t fs).counters.count? f := by
  by_cases ht : t = .disabled
  · subst ht
    have hgs := idle_afterLookups gs
    have hfs := idle_afterLookups fs
    refine ⟨by rw [hgs.metrics, hfs.metrics, h.length_eq], fun f => ?_⟩
    simp only [isCached, Cache.get?, Counters.count?, hgs.cache, hfs.cache, hgs.counters,
      hfs.counters, and_self]
  · have hon : t.isDisabled = false := by simpa [Threshold.isDisabled] using ht
    have hgs := scheduled_afterLookups hon gs
    have hfs := scheduled_afterLookups hon fs
    have hlimit : (afterLookups t gs).limit = (afterLookups t fs).limit := by
      rw [limit, limit, afterLookups_threshold, afterLookups_threshold]
    refine ⟨?_, fun f => ⟨?_, ?_⟩⟩
    · rw [hgs.metrics, hfs.metrics, hlimit]
      simp only [scheduled, tally_perm h, h.length_eq]
    · rw [(hgs.known f).cached, (hfs.known f).cached, hlimit, h.count_eq]
    · rw [(hgs.known f).count?, (hfs.known f).count?, hlimit, h.count_eq]

/-- A format is promoted at the first miss beyond the threshold, whatever other formats are looked
up in between. -/
theorem promotion_schedule (t : Threshold) (fs : List String) (h : fs.length < 2 ^ 64) :
    (t ≠ .disabled →
      (∀ f, (afterLookups t fs).isCached f = true ↔ t.misses.toNat < fs.count f) ∧
      (∀ f, ((afterLookups t fs).counters.get f).toNat =
        if 0 < t.misses.toNat ∧ fs.count f ≤ t.misses.toNat then fs.count f else 0) ∧
      (afterLookups t fs).metrics.hits.toNat =
        ∑ f ∈ fs.toFinset, (fs.count f - (t.misses.toNat + 1)) ∧
      (afterLookups t fs).metrics.misses.toNat =
        ∑ f ∈ fs.toFinset, min (fs.count f) (t.misses.toNat + 1) ∧
      (afterLookups t fs).metrics.promotions.toNat = (afterLookups t fs).cache.size ∧
      (afterLookups t fs).cache.size =
        (fs.toFinset.filter fun f => t.misses.toNat < fs.count f).card ∧
      (afterLookups t fs).metrics.duplicatePromotions = 0) ∧
    (t = .disabled →
      (afterLookups t fs).cache.isEmpty = true ∧ (afterLookups t fs).counters.isEmpty = true ∧
      (afterLookups t fs).metrics.hits = 0 ∧ (afterLookups t fs).metrics.promotions = 0 ∧
      (afterLookups t fs).metrics.misses.toNat = fs.length) ∧
    ∀ gs : List String, gs.Perm fs →
      (afterLookups t gs).metrics = (afterLookups t fs).metrics ∧
      ∀ f, ((afterLookups t gs).cache.get? f).map Compiled.template =
          ((afterLookups t fs).cache.get? f).map Compiled.template ∧
        (afterLookups t gs).counters.get f = (afterLookups t fs).counters.get f := by
  refine ⟨?_, ?_, ?_⟩
  · intro ht
    have hs := scheduled_afterLookups (by simpa [Threshold.isDisabled] using ht) fs
    have hlimit : (afterLookups t fs).limit = t.misses.toNat := by
      rw [limit, afterLookups_threshold]
    have htally {g : ℕ → ℕ} (hg : ∀ n, g n ≤ n) :
        (UInt64.ofNat (tally fs g)).toNat = tally fs g :=
      UInt64.toNat_ofNat_of_lt' (Nat.lt_of_le_of_lt (tally_le hg fs) h)
    rw [hs.metrics, hs.size, hlimit]
    refine ⟨?_, ?_, ?_, ?_, ?_, ?_, rfl⟩
    · intro f
      rw [(hs.known f).cached, hlimit, decide_eq_true_iff]
    · intro f
      rw [hs.counter, hlimit]
    · exact htally fun n => Nat.sub_le _ _
    · exact htally fun n => Nat.min_le_left _ _
    · exact htally fun n => by split <;> omega
    · rw [tally, Finset.card_filter]
  · rintro rfl
    have hi := idle_afterLookups fs
    rw [hi.metrics, Cache.isEmpty, Counters.isEmpty, hi.cache, hi.counters]
    exact ⟨rfl, rfl, rfl, rfl, UInt64.toNat_ofNat_of_lt' h⟩
  · intro gs hgs
    obtain ⟨hmetrics, hentries⟩ := afterLookups_perm t hgs
    refine ⟨hmetrics, fun f => ⟨?_, ?_⟩⟩
    · rw [cached_template, cached_template, (hentries f).1]
    · exact congrArg (Option.getD · 0) (hentries f).2

theorem promotion_schedule_interleaved :
    ["%s", "%q", "%s", "%s"].length < 2 ^ 64 ∧ Threshold.repetitions ≠ .disabled ∧
      ["%s", "%s", "%s", "%q"].Perm ["%s", "%q", "%s", "%s"] ∧
      (afterLookups .repetitions ["%s", "%q", "%s", "%s"]).isCached "%s" = true ∧
      ((afterLookups .repetitions ["%s", "%q", "%s", "%s"]).counters.get "%q").toNat = 1 ∧
      (afterLookups .repetitions ["%s", "%q", "%s", "%s"]).metrics.hits.toNat = 1 ∧
      (afterLookups .repetitions ["%s", "%q", "%s", "%s"]).metrics.misses.toNat = 3 ∧
      (afterLookups .repetitions ["%s", "%q", "%s", "%s"]).cache.size = 1 ∧
      (afterLookups .disabled ["%s", "%q", "%s", "%s"]).metrics.misses.toNat = 4 ∧
      (afterLookups .repetitions ["%s", "%s", "%s", "%q"]).metrics =
        (afterLookups .repetitions ["%s", "%q", "%s", "%s"]).metrics := by
  have hlength : ["%s", "%q", "%s", "%s"].length < 2 ^ 64 := by decide
  have hperm : ["%s", "%s", "%s", "%q"].Perm ["%s", "%q", "%s", "%s"] := by decide
  have hon : Threshold.repetitions ≠ .disabled := by decide
  obtain ⟨hactive, -, horder⟩ := promotion_schedule .repetitions _ hlength
  obtain ⟨hcached, hcounter, hhits, hmisses, -, hsize, -⟩ := hactive hon
  obtain ⟨-, hidle, -⟩ := promotion_schedule .disabled _ hlength
  refine ⟨hlength, hon, hperm, (hcached "%s").2 (by decide), ?_, ?_, ?_, ?_, ?_, ?_⟩
  · rw [hcounter "%q"]
    decide
  · rw [hhits]
    decide
  · rw [hmisses]
    decide
  · rw [hsize]
    decide
  · exact (hidle rfl).2.2.2.2
  · exact (horder _ hperm).1

end Registry

end PercentFormat
