import PercentFormat.Conformance.Report
import PercentFormat.Proofs.Conformance.FixtureText

/-!
# Reports as texts

Every report whose counts are machine words is read back from its text, and a report that was read
from any text has such counts. So neither reports nor fixture sets lose anything when they are
written, read and written again.
-/

namespace PercentFormat

/-! ## Verdicts -/

namespace Verdict

theorem ofOutline_toJson (v : Verdict) : ofOutline v.toJson.outline = .ok v := by
  have hcaseName : Json.Field.Taken fields ⟨"", "", false, "", "", none⟩
      [("case_name", .string v.caseName)] ⟨v.caseName, "", false, "", "", none⟩ :=
    .required rfl rfl rfl
  have hfamily : Json.Field.Taken fields ⟨v.caseName, "", false, "", "", none⟩
      [("family", .string v.family)] ⟨v.caseName, v.family, false, "", "", none⟩ :=
    .required rfl rfl rfl
  have hpassed : Json.Field.Taken fields ⟨v.caseName, v.family, false, "", "", none⟩
      [("passed", .bool v.passed)] ⟨v.caseName, v.family, v.passed, "", "", none⟩ :=
    .required rfl rfl rfl
  have hexpected : Json.Field.Taken fields ⟨v.caseName, v.family, v.passed, "", "", none⟩
      [("expected", .string v.expected)]
      ⟨v.caseName, v.family, v.passed, v.expected, "", none⟩ :=
    .required rfl rfl rfl
  have hactual : Json.Field.Taken fields
      ⟨v.caseName, v.family, v.passed, v.expected, "", none⟩ [("actual", .string v.actual)]
      ⟨v.caseName, v.family, v.passed, v.expected, v.actual, none⟩ :=
    .required rfl rfl rfl
  have hdiff : Json.Field.Taken fields
      ⟨v.caseName, v.family, v.passed, v.expected, v.actual, none⟩
      [("diff", Json.ofOption .string v.diff)] v :=
    .nullable rfl (fun _ _ => rfl) (by simp) rfl
  refine (((((hcaseName.append hfamily).append hpassed).append hexpected).append
    hactual).append hdiff).asRecord ?_ ?_
  · simp
  · simp [fields, Json.Field.required, Json.Field.optional, Json.Field.reading]

theorem fits_toJson (v : Verdict) : Json.Fits 1 v.toJson := by
  have hdiff : Json.Fits 0 (Json.ofOption .string v.diff) := by
    cases v.diff <;> trivial
  exact ⟨trivial, trivial, trivial, trivial, trivial, hdiff, trivial⟩

end Verdict

/-! ## Summaries -/

namespace Summary

/-- All counts are machine words. -/
structure Bounded (s : Summary) : Prop where
  total_lt : s.total < 2 ^ 64
  passed_lt : s.passed < 2 ^ 64
  failed_lt : s.failed < 2 ^ 64

theorem ofOutline_toJson {s : Summary} (h : s.Bounded) : ofOutline s.toJson.outline = .ok s := by
  have htotal : Json.Field.Taken fields ⟨0, 0, 0, []⟩ [("total", .ofNat s.total)]
      ⟨s.total, 0, 0, []⟩ :=
    .required rfl (Json.asNat_outline h.total_lt) rfl
  have hpassed : Json.Field.Taken fields ⟨s.total, 0, 0, []⟩ [("passed", .ofNat s.passed)]
      ⟨s.total, s.passed, 0, []⟩ :=
    .required rfl (Json.asNat_outline h.passed_lt) rfl
  have hfailed : Json.Field.Taken fields ⟨s.total, s.passed, 0, []⟩ [("failed", .ofNat s.failed)]
      ⟨s.total, s.passed, s.failed, []⟩ :=
    .required rfl (Json.asNat_outline h.failed_lt) rfl
  have hresults : Json.Field.Taken fields ⟨s.total, s.passed, s.failed, []⟩
      [("results", .array (s.results.map Verdict.toJson))] s :=
    .required rfl (Json.asList_outline fun v _ => v.ofOutline_toJson) rfl
  refine (((htotal.append hpassed).append hfailed).append hresults).asRecord ?_ ?_
  · simp
  · simp [fields, Json.Field.required, Json.Field.reading]

theorem fits_toJson {s : Summary} (h : s.Bounded) : Json.Fits 3 s.toJson := by
  have hresults : Json.ItemsFit 1 (s.results.map Verdict.toJson) := by
    induction s.results with
    | nil => trivial
    | cons v vs ih => exact ⟨v.fits_toJson, ih⟩
  exact ⟨Json.fits_ofNat h.total_lt, Json.fits_ofNat h.passed_lt, Json.fits_ofNat h.failed_lt,
    hresults, trivial⟩

theorem bounded_of_ofOutline {o : Json.Outline} {s : Summary} (h : ofOutline o = .ok s) :
    s.Bounded := by
  refine Json.asRecord_induction ?_ ⟨by decide, by decide, by decide⟩ h
  intro f hf o a b ha hb
  simp only [fields, List.mem_cons, List.not_mem_nil, or_false] at hf
  rcases hf with rfl | rfl | rfl | rfl <;>
    obtain ⟨x, hx, rfl⟩ := Json.Field.set_reading_eq_ok.mp hb
  · exact { ha with total_lt := Json.lt_of_asNat hx }
  · exact { ha with passed_lt := Json.lt_of_asNat hx }
  · exact { ha with failed_lt := Json.lt_of_asNat hx }
  · exact ⟨ha.total_lt, ha.passed_lt, ha.failed_lt⟩

end Summary

/-! ## Reports -/

namespace Report

theorem ofOutline_toJson {r : Report} (h : r.summary.Bounded) :
    ofOutline r.toJson.outline = .ok r := by
  have htitle : Json.Field.Taken fields ⟨"", "", "", ⟨0, 0, 0, []⟩⟩ [("title", .string r.title)]
      ⟨r.title, "", "", ⟨0, 0, 0, []⟩⟩ :=
    .required rfl rfl rfl
  have hthreshold : Json.Field.Taken fields ⟨r.title, "", "", ⟨0, 0, 0, []⟩⟩
      [("threshold", .string r.threshold)] ⟨r.title, r.threshold, "", ⟨0, 0, 0, []⟩⟩ :=
    .required rfl rfl rfl
  have htimestamp : Json.Field.Taken fields ⟨r.title, r.threshold, "", ⟨0, 0, 0, []⟩⟩
      [("timestamp", .string r.timestamp)]
      ⟨r.title, r.threshold, r.timestamp, ⟨0, 0, 0, []⟩⟩ :=
    .required rfl rfl rfl
  have hsummary : Json.Field.Taken fields ⟨r.title, r.threshold, r.timestamp, ⟨0, 0, 0, []⟩⟩
      [("summary", r.summary.toJson)] r :=
    .required rfl (Summary.ofOutline_toJson h) rfl
  refine (((htitle.append hthreshold).append htimestamp).append hsummary).asRecord ?_ ?_
  · simp
  · simp [fields, Json.Field.required, Json.Field.reading]

theorem fits_toJson {r : Report} (h : r.summary.Bounded) : Json.Fits 4 r.toJson :=
  ⟨trivial, trivial, trivial, Summary.fits_toJson h, trivial⟩

theorem parse_text {r : Report} (h : r.summary.Bounded) : parse r.text = .ok r :=
  Json.parseAs_pretty (fits_toJson h) (ofOutline_toJson h)

theorem bounded_of_parse {text : String} {r : Report} (h : parse text = .ok r) :
    r.summary.Bounded := by
  obtain ⟨o, ho⟩ := Json.exists_outline_of_parseAs h
  refine Json.asRecord_induction (P := fun r => r.summary.Bounded) ?_
    ⟨by decide, by decide, by decide⟩ ho
  intro f hf o a b ha hb
  simp only [fields, List.mem_cons, List.not_mem_nil, or_false] at hf
  rcases hf with rfl | rfl | rfl | rfl <;>
    obtain ⟨x, hx, rfl⟩ := Json.Field.set_reading_eq_ok.mp hb
  · exact ha
  · exact ha
  · exact ha
  · exact Summary.bounded_of_ofOutline hx

end Report

/-! ## Both -/

theorem Json.bind_eq_self {α : Type} {x : Except Json.Failure α} {f : α → Except Json.Failure α}
    (h : ∀ a, x = .ok a → f a = .ok a) : (x >>= f) = x := by
  cases x with
  | error e => rfl
  | ok a => exact h a rfl

/-- Texts of fixture sets and of reports tell them apart, and what was read from any text is read
again from its own. -/
theorem texts_read_back :
    (∀ s : FixtureSet, FixtureSet.parse s.text = .ok s) ∧
    (∀ r : Report, r.summary.Bounded → Report.parse r.text = .ok r) ∧
    (∀ s s' : FixtureSet, s ≠ s' → s.text ≠ s'.text) ∧
    (∀ r r' : Report, r.summary.Bounded → r'.summary.Bounded → r ≠ r' → r.text ≠ r'.text) ∧
    (∀ text, (FixtureSet.parse text >>= fun s => FixtureSet.parse s.text) =
      FixtureSet.parse text) ∧
    ∀ text, (Report.parse text >>= fun r => Report.parse r.text) = Report.parse text := by
  refine ⟨FixtureSet.parse_text, fun r h => Report.parse_text h, ?_, ?_, ?_, ?_⟩
  · intro s s' hne htext
    have hread := s.parse_text
    rw [htext, s'.parse_text] at hread
    exact hne (Except.ok.inj hread).symm
  · intro r r' hr hr' hne htext
    have hread := Report.parse_text hr
    rw [htext, Report.parse_text hr'] at hread
    exact hne (Except.ok.inj hread).symm
  · exact fun text => Json.bind_eq_self fun s _ => s.parse_text
  · exact fun text => Json.bind_eq_self fun r h => Report.parse_text (Report.bounded_of_parse h)

def Report.mixed : Report where
  title := "Report"
  threshold := "3"
  timestamp := "now"
  summary := .ofResults [⟨"a", "str", true, "x", "x", none⟩,
    ⟨"b", "str", false, "x\ty", "x", some "-x\ty\n+x\n"⟩]

theorem texts_read_back_mixed :
    Report.mixed.summary.Bounded ∧ Report.parse Report.mixed.text = .ok Report.mixed ∧
      Report.mixed.text ≠ { Report.mixed with title := "" }.text := by
  have hbounded : Report.mixed.summary.Bounded := ⟨by decide, by decide, by decide⟩
  obtain ⟨-, hread, -, hapart, -⟩ := texts_read_back
  refine ⟨hbounded, hread _ hbounded, hapart _ _ hbounded ?_ (by decide)⟩
  exact ⟨hbounded.total_lt, hbounded.passed_lt, hbounded.failed_lt⟩

end PercentFormat
