import Mathlib.Data.String.Basic
import PercentFormat.Conformance.Verification
import PercentFormat.Proofs.Conformance.Verdicts

/-!
# What is reported

The verdicts of a report are those of all runs, ordered by family and case name; verdicts on the
same name stay in the order in which they came. Every threshold finds the same cases failing.
-/

namespace PercentFormat

namespace Verdict

/-- Order by family, then by the name of the case. -/
def Precedes (a b : Verdict) : Prop :=
  a.family < b.family ∨ (a.family = b.family ∧ a.caseName ≤ b.caseName)

theorem before_iff {a b : Verdict} : a.before b = true ↔ a.Precedes b := by
  simp [before, Precedes]

theorem Precedes.trans {a b c : Verdict} (hab : a.Precedes b) (hbc : b.Precedes c) :
    a.Precedes c := by
  rcases hab with hab | ⟨hab, hab'⟩
  · rcases hbc with hbc | ⟨hbc, -⟩
    · exact .inl (lt_trans hab hbc)
    · exact .inl (hbc ▸ hab)
  · rcases hbc with hbc | ⟨hbc, hbc'⟩
    · exact .inl (hab ▸ hbc)
    · exact .inr ⟨hab.trans hbc, le_trans hab' hbc'⟩

theorem precedes_total (a b : Verdict) : a.Precedes b ∨ b.Precedes a := by
  rcases lt_trichotomy a.family b.family with h | h | h
  · exact .inl (.inl h)
  · exact (le_total a.caseName b.caseName).imp (fun hle => .inr ⟨h, hle⟩)
      fun hle => .inr ⟨h.symm, hle⟩
  · exact .inr (.inl h)

def isOn (family name : String) (v : Verdict) : Bool := v.family = family ∧ v.caseName = name

/-- Verdicts in order, with those on the same name as they came. -/
structure Arranged (all results : List Verdict) : Prop where
  perm : results.Perm all
  ordered : results.Pairwise Precedes
  stable : ∀ family name, results.filter (isOn family name) = all.filter (isOn family name)

theorem arranged_mergeSort (all : List Verdict) : Arranged all (all.mergeSort before) := by
  have htrans (a b c : Verdict) (hab : a.before b = true) (hbc : b.before c = true) :
      a.before c = true :=
    before_iff.mpr ((before_iff.mp hab).trans (before_iff.mp hbc))
  have htotal (a b : Verdict) : (a.before b || b.before a) = true := by
    rw [Bool.or_eq_true, before_iff, before_iff]
    exact precedes_total a b
  have hperm := List.mergeSort_perm all before
  refine ⟨hperm, ?_, ?_⟩
  · exact (List.pairwise_mergeSort htrans htotal all).imp before_iff.mp
  · intro family name
    -- Verdicts on one name are in order as they are, so sorting keeps them as a sublist.
    have hsame : (all.filter (isOn family name)).Pairwise fun a b => a.before b = true := by
      refine List.pairwise_of_forall_mem_list ?_
      intro a ha b hb
      simp only [List.mem_filter, isOn, decide_eq_true_eq] at ha hb
      rw [before_iff]
      exact .inr ⟨ha.2.1.trans hb.2.1.symm, le_of_eq (ha.2.2.trans hb.2.2.symm)⟩
    have hself : (all.filter (isOn family name)).filter (isOn family name) =
        all.filter (isOn family name) :=
      List.filter_eq_self.mpr fun v hv => (List.mem_filter.mp hv).2
    have hsub := (List.sublist_mergeSort htrans htotal hsame List.filter_sublist).filter
      (isOn family name)
    rw [hself] at hsub
    exact (hsub.eq_of_length (hperm.filter _).length_eq.symm).symm

end Verdict

/-! ## Verdicts of all runs -/

/-- How many cases of some sets a formatter does not render as expected. -/
def Formatter.failing (f : Formatter) (sets : List FixtureSet) : Nat :=
  (sets.flatMap (·.cases)).countP fun c => (f.sprintf c.format c.args).1 ≠ c.expected

theorem Formatter.failing_eq_zero_iff {f : Formatter} {sets : List FixtureSet} :
    f.failing sets = 0 ↔
      ∀ s ∈ sets, ∀ c ∈ s.cases, (f.sprintf c.format c.args).1 = c.expected := by
  rw [failing, List.countP_eq_zero]
  constructor
  · intro h s hs c hc
    simpa using h c (List.mem_flatMap.mpr ⟨s, hs, hc⟩)
  · intro h c hc
    obtain ⟨s, hs, hc⟩ := List.mem_flatMap.mp hc
    simpa using h s hs c hc

namespace Verification

/-- The verdicts under one threshold, in the order of the files. -/
def verdictsUnder (v : Verification) (sets : List FixtureSet) (t : Threshold) : List Verdict :=
  ((Runner.new "fixture-verify" t v.passes).runEach sets).1

/-- The verdicts under all thresholds, in the order of these. -/
def allVerdicts (v : Verification) (sets : List FixtureSet) : List Verdict :=
  v.thresholds.flatMap (v.verdictsUnder sets)

theorem length_thresholds (v : Verification) :
    v.thresholds.length = if v.threshold = none then 3 else 1 := by
  unfold thresholds
  cases v.threshold <;> rfl

/-- All thresholds give the same verdicts. -/
theorem verdictsUnder_eq (v : Verification) (sets : List FixtureSet) (t : Threshold) :
    v.verdictsUnder sets t =
      sets.flatMap fun s => s.cases.map (Runner.verdictOn s.family) :=
  ((Runner.sound_new "fixture-verify" t v.passes).runEach sets).1

theorem countP_allVerdicts (v : Verification) (sets : List FixtureSet) (p : Verdict → Bool) :
    (v.allVerdicts sets).countP p = v.thresholds.length *
      (sets.flatMap fun s => s.cases.map (Runner.verdictOn s.family)).countP p := by
  unfold allVerdicts
  induction v.thresholds with
  | nil => simp
  | cons t ts ih =>
    rw [List.flatMap_cons, List.countP_append, ih, verdictsUnder_eq, List.length_cons,
      Nat.succ_mul, Nat.add_comm]

theorem length_allVerdicts (v : Verification) (sets : List FixtureSet) :
    (v.allVerdicts sets).length = v.thresholds.length * (sets.flatMap (·.cases)).length := by
  have hcount := v.countP_allVerdicts sets fun _ => true
  simpa [List.length_flatMap] using hcount

/-- A verdict is against a case when a formatter, whatever it did before, renders it otherwise. -/
theorem countP_failing {f : Formatter} (hf : f.Sound .standard) (sets : List FixtureSet) :
    (sets.flatMap fun s => s.cases.map (Runner.verdictOn s.family)).countP (! ·.passed) =
      f.failing sets := by
  have hcase (family : String) (c : FixtureCase) : (! (Runner.verdictOn family c).passed) =
      decide ((f.sprintf c.format c.args).1 ≠ c.expected) := by
    rw [hf.sprintf]
    exact (decide_not ..).symm
  unfold Formatter.failing
  induction sets with
  | nil => rfl
  | cons s sets ih =>
    rw [List.flatMap_cons, List.countP_append, ih, List.flatMap_cons, List.countP_append,
      List.countP_map]
    congr 1
    exact List.countP_congr fun c _ => by rw [Function.comp_apply, hcase]

/-! ## The summary of a report -/

variable (v : Verification) (timestamp : String) (sets : List FixtureSet)

theorem total_reportOn : (v.reportOn timestamp (v.allVerdicts sets)).summary.total =
    v.thresholds.length * (sets.flatMap (·.cases)).length := by
  rw [← length_allVerdicts]
  exact List.length_mergeSort _

theorem failed_reportOn {f : Formatter} (hf : f.Sound .standard) :
    (v.reportOn timestamp (v.allVerdicts sets)).summary.failed =
      v.thresholds.length * f.failing sets := by
  have hperm := List.mergeSort_perm (v.allVerdicts sets) Verdict.before
  rw [reportOn, Summary.failed_ofResults, Summary.failures, ← List.countP_eq_length_filter,
    Summary.ofResults, hperm.countP_eq, countP_allVerdicts, countP_failing hf]

/-- Whether all cases passed does not depend on how many thresholds there are. -/
theorem allPassed_reportOn {f : Formatter} (hf : f.Sound .standard) :
    (v.reportOn timestamp (v.allVerdicts sets)).summary.allPassed = true ↔
      f.failing sets = 0 := by
  have hsome : v.thresholds.length ≠ 0 := by
    rw [length_thresholds]
    split <;> decide
  rw [Summary.allPassed, beq_iff_eq, v.failed_reportOn timestamp sets hf, Nat.mul_eq_zero]
  exact or_iff_right hsome

end Verification

end PercentFormat
