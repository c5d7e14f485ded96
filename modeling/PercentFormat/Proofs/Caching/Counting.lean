import Mathlib.Data.List.Induction
import PercentFormat.Proofs.Caching.Outcome

/-!
# Cached formats that are still counted

Under a threshold that counts, a promotion takes the count of its format away. Under `always` it
leaves the count where it is, and there is one when the format was missed under another threshold
before. Nothing but a purge removes such a count again.
-/

namespace PercentFormat.Registry

def isCached (r : Registry) (f : String) : Bool := (r.cache.get? f).isSome

def isCounted (r : Registry) (f : String) : Bool := (r.counters.count? f).isSome

/-- Lookups, changes of the threshold and purges. -/
def Event.isOwn : Event → Bool
  | .lookup _ => true
  | .setThreshold _ => true
  | .purge => true
  | _ => false

/-- A registry that promotes a format now forgets to take its count away. -/
structure Careless (r : Registry) (f : String) : Prop where
  eager : r.threshold = .always
  missing : r.isCached f = false
  counted : r.isCounted f = true

theorem isCached_insert (c : Cache Compiled) (k f : String) (v : Compiled) :
    ((c.insert k v).2.get? f).isSome = (decide (f = k) || (c.get? f).isSome) := by
  rw [Cache.get?_insert]
  by_cases h : f = k <;> simp [h]

theorem isCounted_erase (c : Counters) (k f : String) :
    ((c.erase k).count? f).isSome = (!decide (f = k) && (c.count? f).isSome) := by
  rw [Counters.count?_erase]
  by_cases h : f = k <;> simp [h]

section

variable {r s : Registry} {c : Compiled} {f g : String}

/-- Undisturbed, a compilation leaves the cache alone. -/
theorem compiling_cache_standard (h : r.compiler = .standard) (f : String) :
    (r.compiling f).2.cache = r.cache := by
  rw [compiling_cache, h]
  rfl

theorem Outcome.frame (o : Outcome r g c s) (hg : f ≠ g) :
    s.isCached f = r.isCached f ∧ s.isCounted f = r.isCounted f := by
  obtain ⟨hcache, hcount⟩ := o.entries_frame hg
  exact ⟨congrArg Option.isSome hcache, congrArg Option.isSome hcount⟩

/-- A lookup leaves its format both cached and counted when it was so before or is promoted
carelessly. -/
theorem Outcome.both_iff (o : Outcome r f c s) (h : r.compiler = .standard) :
    (s.isCached f = true ∧ s.isCounted f = true) ↔
      (r.isCached f = true ∧ r.isCounted f = true) ∨ r.Careless f := by
  have hcache := compiling_cache_standard h f
  have hcareful (ht : r.threshold.isAlways = false) : ¬ r.Careless f := by
    intro hl
    simp [hl.eager, Threshold.isAlways] at ht
  cases o with
  | hit cached =>
    have hc : r.isCached f = true := by simp [isCached, cached]
    have hl : ¬ r.Careless f := fun hl => by simp [hl.missing] at hc
    simp only [hl, or_false]
    rfl
  | passed missing off =>
    have ht : r.threshold.isAlways = false := by
      simp only [Threshold.isDisabled, decide_eq_true_eq] at off
      rw [off]
      rfl
    simp only [hcareful ht, or_false, isCached, isCounted, hcache, compiling_counters]
  | counted missing on counts few =>
    simp [hcareful counts, isCached, counting, hcache, missing]
  | promoted missing on counts many =>
    have hc : r.isCached f = false := by simp [isCached, missing]
    simp [hcareful counts, hc, isCounted, counting, counts, isCounted_erase]
  | always missing eager =>
    have hc : r.isCached f = false := by simp [isCached, missing]
    have ht : r.threshold = .always := by simpa [Threshold.isAlways] using eager
    have hl : r.Careless f ↔ r.isCounted f = true :=
      ⟨fun hl => hl.counted, fun hn => ⟨ht, hc, hn⟩⟩
    simp [hl, isCached, isCounted, isCached_insert, eager]

theorem apply_compiler (r : Registry) (e : Event) : (r.apply e).compiler = r.compiler := by
  cases e with
  | lookup f => exact (r.lookup_outcome f).compiler
  | _ => rfl

theorem run_compiler (r : Registry) (events : List Event) :
    (r.run events).compiler = r.compiler := by
  induction events generalizing r with
  | nil => rfl
  | cons e events ih => exact (ih (r.apply e)).trans (r.apply_compiler e)

theorem run_concat (r : Registry) (events : List Event) (e : Event) :
    r.run (events ++ [e]) = (r.run events).apply e := by
  simp [run]

theorem both_apply_iff (h : r.compiler = .standard) {e : Event} (he : e.isOwn = true)
    (f : String) :
    ((r.apply e).isCached f = true ∧ (r.apply e).isCounted f = true) ↔
      ((r.isCached f = true ∧ r.isCounted f = true) ∧ e ≠ .purge) ∨
        (e = .lookup f ∧ r.Careless f) := by
  cases e with
  | lookup g =>
    have ho := r.lookup_outcome g
    by_cases hg : f = g
    · subst hg
      simpa [apply] using ho.both_iff h
    · obtain ⟨hcached, hcounted⟩ := ho.frame hg
      have hne : ¬ (g = f ∧ r.Careless f) := fun hl => hg hl.1.symm
      simp [apply, hcached, hcounted, hne]
  | setThreshold t => simp [apply, setThreshold, isCached, isCounted]
  | purge => simp [apply, purge, isCached]
  | bump g => simp [Event.isOwn] at he
  | insert g t => simp [Event.isOwn] at he

end

/-- A format is cached and counted at once exactly when it was promoted carelessly and nothing has
been purged since. -/
theorem cached_and_counted_iff (t : Threshold) (events : List Event)
    (h : ∀ e ∈ events, e.isOwn = true) (f : String) :
    ((Registry.run { threshold := t } events).isCached f = true ∧
        (Registry.run { threshold := t } events).isCounted f = true) ↔
      ∃ before behind, events = before ++ .lookup f :: behind ∧ .purge ∉ behind ∧
        (Registry.run { threshold := t } before).Careless f := by
  induction events using List.reverseRecOn with
  | nil => simp [run, isCached]
  | append_singleton events e ih =>
    have hcompiler := run_compiler { threshold := t } events
    rw [run_concat, both_apply_iff hcompiler (h e (by simp)), ih (fun d hd => h d (by simp [hd]))]
    constructor
    · rintro (⟨⟨before, behind, rfl, hb, hl⟩, he⟩ | ⟨rfl, hl⟩)
      · refine ⟨before, behind ++ [e], by simp, ?_, hl⟩
        simp only [List.mem_append, List.mem_singleton, not_or]
        exact ⟨hb, fun hp => he hp.symm⟩
      · exact ⟨events, [], rfl, by simp, hl⟩
    · rintro ⟨before, behind, hsplit, hb, hl⟩
      -- The careless lookup is the last event, or it lies before that.
      rcases List.eq_nil_or_concat behind with rfl | ⟨behind, d, rfl⟩
      · obtain ⟨rfl, he⟩ := List.append_inj' hsplit rfl
        exact .inr ⟨(List.cons.inj he).1, hl⟩
      · rw [List.concat_eq_append, ← List.cons_append, ← List.append_assoc] at hsplit
        obtain ⟨rfl, he⟩ := List.append_inj' hsplit rfl
        obtain rfl := (List.cons.inj he).1
        simp only [List.concat_eq_append, List.mem_append, List.mem_singleton, not_or] at hb
        exact .inl ⟨⟨before, behind, rfl, hb.1, hl⟩, fun hp => hb.2 hp.symm⟩

theorem careless_lookup_of_cached_and_counted :
    (∀ e ∈ [Event.lookup "a", .setThreshold .always, .lookup "a"], e.isOwn = true) ∧
      ∃ before behind,
        [Event.lookup "a", .setThreshold .always, .lookup "a"] =
          before ++ .lookup "a" :: behind ∧ .purge ∉ behind ∧
        (Registry.run { threshold := .repetitions } before).Careless "a" := by
  have hown : ∀ e ∈ [Event.lookup "a", .setThreshold .always, .lookup "a"], e.isOwn = true := by
    decide
  exact ⟨hown, (cached_and_counted_iff .repetitions _ hown "a").1 (by decide)⟩

/-- A format missed under `repetitions` and then looked up under `always` is both. -/
theorem not_cached_or_not_counted :
    ¬ ∀ (t : Threshold) (events : List Event), (∀ e ∈ events, e.isOwn = true) → ∀ f,
      ¬ ((Registry.run { threshold := t } events).isCached f = true ∧
        (Registry.run { threshold := t } events).isCounted f = true) := by
  intro h
  exact h .repetitions [.lookup "a", .setThreshold .always, .lookup "a"] (by decide) "a" (by decide)

end PercentFormat.Registry
