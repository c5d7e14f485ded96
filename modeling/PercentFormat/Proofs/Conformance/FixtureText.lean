import PercentFormat.Conformance.Loading
import PercentFormat.Proofs.Conformance.Hosting
import PercentFormat.Proofs.Json.Records
import PercentFormat.Proofs.Text.Utf8

/-!
# Fixtures as texts

Every fixture set is read back from its text, and loaded from a file with that text.
-/

namespace PercentFormat

namespace FixtureCase

/-- A note that is missing has no member, and one that is there is no null. -/
theorem taken_note {c a : FixtureCase} (ha : a.note = none) :
    Json.Field.Taken fields a (Json.memberIfSome "note" .string c.note)
      { a with note := c.note } := by
  cases hnote : c.note with
  | none =>
    have hsame : { a with note := none } = a := by
      rw [← ha]
    rw [hsame]
    exact .nil a
  | some note => exact .defaulted rfl (x := some note) rfl rfl

theorem ofOutline_toJson (c : FixtureCase) : ofOutline c.toJson.outline = .ok c := by
  have hname (a : FixtureCase) : Json.Field.Taken fields a [("name", .string c.name)]
      { a with name := c.name } :=
    .required rfl rfl rfl
  have hformat (a : FixtureCase) : Json.Field.Taken fields a [("format", .string c.format)]
      { a with format := c.format } :=
    .required rfl rfl rfl
  have hargs (a : FixtureCase) : Json.Field.Taken fields a [("args", .ofStrings c.args)]
      { a with args := c.args } :=
    .defaulted rfl (Json.asList_outline fun _ _ => rfl) rfl
  have hexpected (a : FixtureCase) : Json.Field.Taken fields a
      [("expected", .string c.expected)] { a with expected := c.expected } :=
    .required rfl rfl rfl
  have hfirst := hname { name := "", format := "", expected := "" }
  refine Json.Field.Taken.asRecord ((((hfirst.append (hformat _)).append (hargs _)).append
    (hexpected _)).append (taken_note rfl)) ?_ ?_
  · have hnames : (["name"] ++ ["format"] ++ ["args"] ++ ["expected"] ++ ["note"]).Nodup := by
      decide
    refine List.Nodup.sublist ?_ hnames
    simp only [List.map_append]
    exact (List.Sublist.refl _).append (Json.names_ifSome _ _ _)
  · intro f hf hp
    simp only [fields, List.mem_cons, List.not_mem_nil, or_false] at hf
    rcases hf with rfl | rfl | rfl | rfl | rfl <;>
      simp_all [Json.Field.required, Json.Field.defaulted, Json.Field.reading]

theorem fits_toJson (c : FixtureCase) : Json.Fits 2 c.toJson := by
  have hnote : Json.MembersFit 1 (Json.memberIfSome "note" .string c.note) := by
    refine Json.fits_ifSome ?_ "note"
    exact fun _ _ => trivial
  exact .append ⟨trivial, trivial, Json.fits_ofStrings c.args, trivial, trivial⟩ hnote

end FixtureCase

namespace FixtureSet

theorem ofOutline_toJson (s : FixtureSet) : ofOutline s.toJson.outline = .ok s := by
  have hversion : Json.Field.Taken fields ⟨"", "", []⟩ [("version", .string s.version)]
      ⟨s.version, "", []⟩ :=
    .required rfl rfl rfl
  have hfamily : Json.Field.Taken fields ⟨s.version, "", []⟩ [("family", .string s.family)]
      ⟨s.version, s.family, []⟩ :=
    .required rfl rfl rfl
  have hcases : Json.Field.Taken fields ⟨s.version, s.family, []⟩
      [("cases", .array (s.cases.map FixtureCase.toJson))] s :=
    .required rfl (Json.asList_outline fun c _ => c.ofOutline_toJson) rfl
  refine ((hversion.append hfamily).append hcases).asRecord ?_ ?_
  · simp
  · simp [fields, Json.Field.required, Json.Field.reading]

theorem fits_toJson (s : FixtureSet) : Json.Fits 4 s.toJson := by
  have hcases : Json.ItemsFit 2 (s.cases.map FixtureCase.toJson) := by
    induction s.cases with
    | nil => trivial
    | cons c cs ih => exact ⟨c.fits_toJson, ih⟩
  exact ⟨trivial, trivial, hcases, trivial⟩

theorem parse_text (s : FixtureSet) : parse s.text = .ok s :=
  Json.parseAs_pretty s.fits_toJson s.ofOutline_toJson

/-! ## Loading -/

section

variable {time path : String} {elapsed : UInt64} {m : Memory} {s : FixtureSet}

theorem readText_memory {text : String} (h : m.files.read path = .ok text.toUTF8) :
    (readText (Host.memory time elapsed) path).run m = (.ok text, m) := by
  have hread : ((Host.memory time elapsed).read path).run m = (.ok text.toUTF8, m) :=
    congrArg (·, m) h
  rw [readText, run_bind _ hread]
  simp only [fromUTF8?_toUTF8]
  rfl

theorem load_memory (h : m.files.read path = .ok s.text.toUTF8) :
    (load (Host.memory time elapsed) path).run.run m = (.ok s, m) := by
  rw [load, run_bind_ok _ (run_lift_ok (readText_memory h))]
  simp only [parse_text]
  rfl

theorem loadAll_memory (h : m.files.read path = .ok s.text.toUTF8) :
    (loadAll (Host.memory time elapsed) path).run.run m = (.ok [s], m) := by
  have hfile : ((Host.memory time elapsed).isDirectory path).run m = (false, m) :=
    congrArg (·, m) (FileTree.isDirectory_of_read h)
  have hsets : (do return [← load (Host.memory time elapsed) path] :
      ExceptT Failure (StateM Memory) (List FixtureSet)).run.run m = (.ok [s], m) :=
    run_bind_ok _ (load_memory h)
  exact (run_bind_ok _ (run_lift_ok hfile)).trans hsets

end

end FixtureSet

end PercentFormat
