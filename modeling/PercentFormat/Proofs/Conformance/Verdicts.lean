import Mathlib.Data.List.Forall2
import PercentFormat.Conformance.Runner
import PercentFormat.Proofs.Caching.Bookkeeping
import PercentFormat.Proofs.Caching.Transparency

/-!
# Verdicts

A runner judges every case by what its template renders, whatever it ran before, under which
threshold and how often. Its registry is asked once for each rendering.
-/

namespace PercentFormat

namespace Formatter

variable {c : Compiler} {f : Formatter}

theorem Sound.sprintf_sound (h : f.Sound c) (hc : c.Faithful) (format : String)
    (args : List String) : (f.sprintf format args).2.Sound c :=
  h.apply hc (.sprintf format args)

/-- Each formatting is one lookup. -/
theorem lookups_sprintf (f : Formatter) (format : String) (args : List String) :
    (f.sprintf format args).2.registry.metrics.lookups = f.registry.metrics.lookups + 1 := by
  have hmetrics := (f.registry.lookup_outcome format).metrics
  have hget := Metrics.get_foldl_count f.registry.metrics (f.registry.noted format) .lookups
  have hone : (f.registry.noted format).count .lookups = 1 := by
    rcases f.registry.noted_cases format with h | h | h | h <;> rw [h] <;> rfl
  rw [← hmetrics, hone] at hget
  exact hget

end Formatter

namespace Runner

/-- What a case comes to without a cache. -/
def rendered (c : FixtureCase) : String := (Template.compile c.format).render c.args

def verdictOn (family : String) (c : FixtureCase) : Verdict := judge family c (rendered c)

/-- Runs of one runner after each other, with all their verdicts. -/
def runEach (r : Runner) : List FixtureSet → List Verdict × Runner
  | [] => ([], r)
  | s :: sets =>
    let (vs, r) := r.run s
    let (ws, r) := r.runEach sets
    (vs ++ ws, r)

/-- What all runs keep. -/
structure Sound (r : Runner) : Prop where
  formatter : r.formatter.Sound .standard
  passes : 1 ≤ r.passes

theorem sound_new (campaign : String) (t : Threshold) (n : Nat) : (new campaign t n).Sound :=
  ⟨Formatter.sound_fresh .standard t, Nat.le_max_left 1 n⟩

/-! ## One case -/

/-- Later renderings of a case are like the first, so all of them take place. -/
theorem renderAgain_spec {f : Formatter} (h : f.Sound .standard) (c : FixtureCase) (n : Nat) :
    (renderAgain c n (rendered c) f).1 = rendered c ∧
      (renderAgain c n (rendered c) f).2.Sound .standard ∧
      (renderAgain c n (rendered c) f).2.registry.metrics.lookups =
        f.registry.metrics.lookups + .ofNat n := by
  induction n generalizing f with
  | zero => exact ⟨rfl, h, by simp [renderAgain]⟩
  | succ n ih =>
    have hsame : (f.sprintf c.format c.args).1 = rendered c := h.sprintf c.format c.args
    have hnext := h.sprintf_sound Compiler.faithful_standard c.format c.args
    obtain ⟨htext, hsound, hlookups⟩ := ih hnext
    have hstep : renderAgain c (n + 1) (rendered c) f =
        renderAgain c n (rendered c) (f.sprintf c.format c.args).2 := by
      simp only [renderAgain, hsame, if_true]
    rw [hstep]
    refine ⟨htext, hsound, ?_⟩
    rw [hlookups, Formatter.lookups_sprintf, UInt64.ofNat_add, UInt64.add_assoc,
      UInt64.add_comm 1]
    rfl

theorem Sound.runCase {r : Runner} (h : r.Sound) (family : String) (c : FixtureCase) :
    (r.runCase family c).1 = verdictOn family c ∧ (r.runCase family c).2.Sound ∧
      (r.runCase family c).2.passes = r.passes ∧
      (r.runCase family c).2.registry.metrics.lookups =
        r.registry.metrics.lookups + .ofNat r.passes := by
  have hfirst : (r.formatter.sprintf c.format c.args).1 = rendered c :=
    h.formatter.sprintf c.format c.args
  have hnext := h.formatter.sprintf_sound Compiler.faithful_standard c.format c.args
  obtain ⟨htext, hsound, hlookups⟩ := renderAgain_spec hnext c (r.passes - 1)
  have hpasses := h.passes
  simp only [Runner.runCase, hfirst]
  refine ⟨by rw [htext]; rfl, ⟨hsound, hpasses⟩, trivial, ?_⟩
  rw [registry, hlookups, Formatter.lookups_sprintf, UInt64.add_assoc]
  congr 1
  rw [← UInt64.ofNat_one, ← UInt64.ofNat_add]
  congr 1
  omega

/-! ## Whole runs -/

theorem Sound.runCases {r : Runner} (h : r.Sound) (family : String) (cs : List FixtureCase) :
    (r.runCases family cs).1 = cs.map (verdictOn family) ∧ (r.runCases family cs).2.Sound ∧
      (r.runCases family cs).2.passes = r.passes ∧
      (r.runCases family cs).2.registry.metrics.lookups =
        r.registry.metrics.lookups + .ofNat (r.passes * cs.length) := by
  induction cs generalizing r with
  | nil => exact ⟨rfl, h, rfl, by simp [Runner.runCases]⟩
  | cons c cs ih =>
    obtain ⟨hverdict, hsound, hpasses, hlookups⟩ := h.runCase family c
    obtain ⟨hverdicts, hsound', hpasses', hlookups'⟩ := ih hsound
    simp only [Runner.runCases]
    refine ⟨?_, hsound', hpasses'.trans hpasses, ?_⟩
    · rw [hverdict, hverdicts, List.map_cons]
    · rw [hlookups', hlookups, hpasses, UInt64.add_assoc, ← UInt64.ofNat_add, List.length_cons,
        Nat.mul_succ, Nat.add_comm r.passes]

theorem length_runCases (r : Runner) (family : String) (cs : List FixtureCase) :
    (r.runCases family cs).1.length = cs.length := by
  induction cs generalizing r with
  | nil => rfl
  | cons c cs ih => simp only [Runner.runCases, List.length_cons, ih]

theorem Sound.runEach {r : Runner} (h : r.Sound) (sets : List FixtureSet) :
    (r.runEach sets).1 = sets.flatMap (fun s => s.cases.map (verdictOn s.family)) ∧
      (r.runEach sets).2.Sound ∧ (r.runEach sets).2.passes = r.passes := by
  induction sets generalizing r with
  | nil => exact ⟨rfl, h, rfl⟩
  | cons s sets ih =>
    obtain ⟨hverdicts, hsound, hpasses, -⟩ := h.runCases s.family s.cases
    obtain ⟨hrest, hsound', hpasses'⟩ := ih (r := (r.run s).2) hsound
    simp only [Runner.runEach]
    refine ⟨?_, hsound', hpasses'.trans hpasses⟩
    rw [hrest, List.flatMap_cons, ← hverdicts]
    rfl

/-- A runner of some thresholds and passes that has run some fixture sets. -/
def afterRuns (campaign : String) (t : Threshold) (n : Nat) (earlier : List FixtureSet) : Runner :=
  ((new campaign t n).runEach earlier).2

theorem sound_afterRuns (campaign : String) (t : Threshold) (n : Nat) (earlier : List FixtureSet) :
    (afterRuns campaign t n earlier).Sound ∧ (afterRuns campaign t n earlier).passes = max 1 n := by
  obtain ⟨-, hsound, hpasses⟩ := (sound_new campaign t n).runEach earlier
  exact ⟨hsound, hpasses⟩

end Runner

/-- What a verdict on a case of a family has to say. -/
structure Verdict.Judges (v : Verdict) (family : String) (c : FixtureCase) : Prop where
  caseName : v.caseName = c.name
  family : v.family = family
  expected : v.expected = c.expected
  /-- Formatting with the compiled format gives the same text at any time. -/
  actual : ∀ t calls, v.actual = (((Formatter.fresh .standard t).run calls).sprintfCompiled
    (Template.compile c.format) c.args).1
  passed : v.passed = true ↔ v.actual = c.expected
  diff : v.diff.isSome = true ↔ v.passed = false

theorem Runner.judges_verdictOn (family : String) (c : FixtureCase) :
    (verdictOn family c).Judges family c := by
  refine ⟨rfl, rfl, rfl, ?_, decide_eq_true_iff, ?_⟩
  · intro t calls
    have hsound := (Formatter.sound_fresh .standard t).run Compiler.faithful_standard calls
    exact (hsound.sprintfCompiled (.compile c.format) c.args).symm
  · unfold verdictOn judge
    by_cases h : rendered c = c.expected <;> simp [h]

namespace Summary

variable (results : List Verdict)

theorem total_ofResults :
    (ofResults results).total = (ofResults results).passed + (ofResults results).failed := by
  have hle : results.countP (·.passed) ≤ results.length := List.countP_le_length
  simp only [ofResults]
  omega

theorem failed_ofResults :
    (ofResults results).failed = (ofResults results).failures.length := by
  have hsplit := List.length_eq_countP_add_countP (l := results) (·.passed)
  rw [failures, ← List.countP_eq_length_filter]
  simp only [ofResults]
  have hcount : results.countP (fun v => !v.passed) =
      results.countP (fun v => decide ¬ v.passed = true) := by
    refine List.countP_congr fun v _ => ?_
    simp
  omega

theorem allPassed_ofResults :
    (ofResults results).allPassed = true ↔ ∀ v ∈ results, v.passed = true := by
  rw [allPassed, beq_iff_eq, failed_ofResults, List.length_eq_zero_iff, failures,
    List.filter_eq_nil_iff]
  simp [ofResults]

end Summary

/-- A run gives one verdict a case, and the same ones under any threshold, with any number of passes
and after any runs. Its lookups are the passes over its cases. A summary counts exactly. -/
theorem Runner.verdicts_exact (campaign : String) (t : Threshold) (n : Nat)
    (earlier : List FixtureSet) (s : FixtureSet) :
    List.Forall₂ (fun c v => v.Judges s.family c) s.cases
        ((afterRuns campaign t n earlier).run s).1 ∧
      (∀ campaign' t' n' earlier', ((afterRuns campaign' t' n' earlier').run s).1 =
        ((afterRuns campaign t n earlier).run s).1) ∧
      ((afterRuns campaign t n earlier).run s).2.registry.metrics.lookups =
        (afterRuns campaign t n earlier).registry.metrics.lookups +
          .ofNat (max 1 n * s.cases.length) ∧
      ∀ results : List Verdict,
        (Summary.ofResults results).total = results.length ∧
        (Summary.ofResults results).total =
          (Summary.ofResults results).passed + (Summary.ofResults results).failed ∧
        (Summary.ofResults results).failed = (Summary.ofResults results).failures.length ∧
        ((Summary.ofResults results).allPassed = true ↔ ∀ v ∈ results, v.passed = true) := by
  have hverdicts (campaign t n earlier) : ((afterRuns campaign t n earlier).run s).1 =
      s.cases.map (verdictOn s.family) :=
    ((sound_afterRuns campaign t n earlier).1.runCases s.family s.cases).1
  obtain ⟨hsound, hpasses⟩ := sound_afterRuns campaign t n earlier
  obtain ⟨-, -, -, hlookups⟩ := hsound.runCases s.family s.cases
  refine ⟨?_, ?_, ?_, ?_⟩
  · rw [hverdicts, List.forall₂_map_right_iff]
    exact List.forall₂_same.mpr fun c _ => judges_verdictOn s.family c
  · intro campaign' t' n' earlier'
    rw [hverdicts, hverdicts]
  · rw [hpasses] at hlookups
    exact hlookups
  · intro results
    exact ⟨rfl, Summary.total_ofResults results, Summary.failed_ofResults results,
      Summary.allPassed_ofResults results⟩

end PercentFormat
