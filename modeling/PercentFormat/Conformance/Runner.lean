import PercentFormat.Conformance.Diff
import PercentFormat.Conformance.Fixture
import PercentFormat.Conformance.Verdict
import PercentFormat.Formatter

/-! # Running fixtures

A runner renders every case several times through a formatter of its own, so that fresh and cached
templates are both looked at. -/

namespace PercentFormat

structure Runner where
  campaign : String
  formatter : Formatter
  /-- How often each case is rendered; at least once. -/
  passes : Nat

namespace Runner

def new (campaign : String) (threshold : Threshold) (passes : Nat) : Runner :=
  ⟨campaign, { registry := { threshold := threshold } }, max 1 passes⟩

def registry (r : Runner) : Registry := r.formatter.registry

def threshold (r : Runner) : Threshold := r.registry.threshold

/-- Renders a case up to `n` more times, until a text comes that differs from the one before. -/
def renderAgain (c : FixtureCase) : Nat → String → Formatter → String × Formatter
  | 0, actual, f => (actual, f)
  | n + 1, actual, f =>
    let (s, f) := f.sprintf c.format c.args
    if s = actual then renderAgain c n actual f else (s, f)

def judge (family : String) (c : FixtureCase) (actual : String) : Verdict where
  caseName := c.name
  family := family
  passed := actual = c.expected
  expected := c.expected
  actual := actual
  diff := if actual = c.expected then none else some (Diff.render c.expected actual)

def runCase (r : Runner) (family : String) (c : FixtureCase) : Verdict × Runner :=
  let (s, f) := r.formatter.sprintf c.format c.args
  let (actual, f) := renderAgain c (r.passes - 1) s f
  (judge family c actual, { r with formatter := f })

def runCases (r : Runner) (family : String) : List FixtureCase → List Verdict × Runner
  | [] => ([], r)
  | c :: cs =>
    let (v, r) := r.runCase family c
    let (vs, r) := r.runCases family cs
    (v :: vs, r)

def run (r : Runner) (s : FixtureSet) : List Verdict × Runner := r.runCases s.family s.cases

end Runner

end PercentFormat
