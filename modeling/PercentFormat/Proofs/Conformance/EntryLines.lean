import PercentFormat.Conformance.LogCheck
import PercentFormat.Proofs.Json.Canonical
import PercentFormat.Proofs.Json.Records
import PercentFormat.Proofs.Text.Lines

/-!
# The lines of entries

An entry is read back from its line, unless its trace id is too short; then that is all that is
wrong with the line. Only details that are null are not told from details that are missing.
-/

namespace PercentFormat

theorem LogLevel.ofName?_name (l : LogLevel) : LogLevel.ofName? l.name = some l := by
  cases l <;> decide

theorem Outcome.ofName?_name (o : Outcome) : Outcome.ofName? o.name = some o := by
  cases o <;> decide

namespace Json

theorem map_canonicalMember_ifSome {α : Type} (write : α → Json)
    (h : ∀ x, (write x).canonical = write x) (name : String) (o : Option α) :
    (memberIfSome name write o).map canonicalMember = memberIfSome name write o := by
  cases o with
  | none => rfl
  | some x => simp only [memberIfSome, List.map_cons, List.map_nil, canonicalMember, h]

theorem canonical_ofStrings (ss : List String) : (ofStrings ss).canonical = ofStrings ss := by
  rw [ofStrings, canonical, canonicalItems_eq_map, List.map_map]
  rfl

end Json

namespace LogEntry

/-- The details have integers for numbers, and with the entry around them are not too deep. -/
def Writable (e : LogEntry) : Prop := ∀ d ∈ e.details, Json.Fits 126 d

/-- The members of an entry in the order of their names. -/
def sortedMembers (e : LogEntry) : List (String × Json) :=
  Json.memberIfSome "artifact_refs" .ofStrings e.artifacts ++
    Json.memberIfSome "case" .string e.case ++
    Json.memberIfSome "details" Json.canonical e.details ++
    [("event", .string e.event)] ++
    Json.memberIfSome "family" .string e.family ++
    Json.memberIfSome "latency_ns" (fun n => .ofNat n.toNat) e.latency ++
    [("level", .string e.level.name)] ++
    Json.memberIfSome "outcome" (fun o => .string o.name) e.outcome ++
    Json.memberIfSome "threshold" .string e.threshold ++
    [("timestamp", .string e.timestamp)] ++
    [("trace_id", .string e.traceId)]

theorem ordered_sortedMembers (e : LogEntry) : Json.Ordered e.sortedMembers := by
  have hnames : (e.sortedMembers.map Prod.fst).Sublist
      (["artifact_refs"] ++ ["case"] ++ ["details"] ++ ["event"] ++ ["family"] ++ ["latency_ns"] ++
        ["level"] ++ ["outcome"] ++ ["threshold"] ++ ["timestamp"] ++ ["trace_id"]) := by
    simp only [sortedMembers, List.map_append]
    repeat' apply List.Sublist.append
    all_goals first
      | exact Json.names_ifSome _ _ _
      | exact .refl _
  have hordered : (["artifact_refs"] ++ ["case"] ++ ["details"] ++ ["event"] ++ ["family"] ++
      ["latency_ns"] ++ ["level"] ++ ["outcome"] ++ ["threshold"] ++ ["timestamp"] ++
      ["trace_id"]).Pairwise (· < ·) := by
    decide
  exact List.pairwise_map.mp (hordered.sublist hnames)

theorem canonical_toJson (e : LogEntry) : e.toJson.canonical = .object e.sortedMembers := by
  rw [toJson, Json.canonical]
  refine congrArg Json.object (Json.canonicalMembers_eq ?_ e.ordered_sortedMembers)
  simp only [List.map_append, List.map_cons, List.map_nil,
    Json.map_canonicalMember_ifSome Json.string fun _ => rfl,
    Json.map_canonicalMember_ifSome (fun n : UInt64 => .ofNat n.toNat) fun _ => rfl,
    Json.map_canonicalMember_ifSome (fun o : Outcome => .string o.name) fun _ => rfl,
    Json.map_canonicalMember_ifSome Json.ofStrings Json.canonical_ofStrings,
    Json.map_canonicalMember_ifSome Json.canonical Json.canonical_canonical]
  -- Both lists have every member equally often.
  classical
  rw [List.perm_iff_count]
  intro m
  simp only [sortedMembers, Json.canonicalMember, Json.canonical, List.count_append,
    List.count_cons, List.count_nil]
  omega

/-! ## What a line says -/

theorem lookup_sortedMembers {e : LogEntry} {name : String} {j : Json}
    (h : (name, j) ∈ e.sortedMembers) : e.toJson.canonical.get? name = some j := by
  rw [canonical_toJson, Json.get?, e.ordered_sortedMembers.lookup h]

theorem textOf?_canonical {e : LogEntry} {name s : String}
    (h : (name, .string s) ∈ e.sortedMembers) : textOf? name e.toJson.canonical = some s := by
  rw [textOf?, lookup_sortedMembers h]
  rfl

theorem problems_canonical (e : LogEntry) :
    problems e.toJson.canonical =
      if Text.colonParts e.traceId.toList < 3 then [.shortTraceId e.traceId] else [] := by
  have htimestamp : textOf? "timestamp" e.toJson.canonical = some e.timestamp :=
    textOf?_canonical (by simp [sortedMembers])
  have htraceId : textOf? "trace_id" e.toJson.canonical = some e.traceId :=
    textOf?_canonical (by simp [sortedMembers])
  have hlevel : textOf? "level" e.toJson.canonical = some e.level.name :=
    textOf?_canonical (by simp [sortedMembers])
  have hevent : textOf? "event" e.toJson.canonical = some e.event :=
    textOf?_canonical (by simp [sortedMembers])
  have hmissing : missingProblems e.toJson.canonical = [] := by
    simp [missingProblems, requiredNames, htimestamp, htraceId, hlevel, hevent]
  have hlevelProblems : levelProblems e.toJson.canonical = [] := by
    simp [levelProblems, hlevel, LogLevel.ofName?_name]
  rw [problems, hmissing, hlevelProblems, traceIdProblems, htraceId, List.nil_append,
    List.append_nil]

/-! ## What is read -/

/-- The entry that is read from a line: details are canonical, and missing when they are null. -/
def settled (e : LogEntry) : LogEntry :=
  { e with details := match e.details with
    | some .null => none
    | d => d.map Json.canonical }

theorem Writable.fits {e : LogEntry} (h : e.Writable) :
    Json.Fits Json.Outline.maxDepth e.toJson := by
  have hrequired : Json.MembersFit 126 [("timestamp", .string e.timestamp),
      ("trace_id", .string e.traceId), ("level", .string e.level.name),
      ("event", .string e.event)] := ⟨trivial, trivial, trivial, trivial, trivial⟩
  refine ((((((hrequired.append (Json.fits_ifSome ?_ _)).append
    (Json.fits_ifSome ?_ _)).append (Json.fits_ifSome ?_ _)).append
    (Json.fits_ifSome ?_ _)).append (Json.fits_ifSome ?_ _)).append
    (Json.fits_ifSome ?_ _)).append (Json.fits_ifSome ?_ _)
  · exact fun _ _ => trivial
  · exact fun _ _ => trivial
  · exact fun _ _ => trivial
  · exact fun _ _ => trivial
  · exact fun n _ => Json.fits_ofNat n.toNat_lt
  · exact fun ss _ => Json.fits_ofStrings ss
  · exact fun d hd => (h d hd).canonical

theorem settled_of_null {e : LogEntry} (h : e.details = some .null) : e.settled.details = none := by
  simp [settled, h]

theorem settled_of_ne_null {e : LogEntry} (h : e.details ≠ some .null) :
    e.settled.details = e.details.map Json.canonical := by
  unfold settled
  split
  · next hd => exact absurd hd h
  · rfl

theorem canonical_ne_null {j : Json} (h : j ≠ .null) : j.canonical ≠ .null := by
  cases j <;> simp_all [Json.canonical]

theorem taken_details {e a : LogEntry} (h : e.Writable) (ha : a.details = none) :
    Json.Field.Taken fields a (Json.memberIfSome "details" Json.canonical e.details)
      { a with details := e.settled.details } := by
  by_cases hd : e.details = some .null
  · rw [hd, settled_of_null hd]
    exact .single rfl rfl
  · have hmap : Json.memberIfSome "details" Json.canonical e.details =
        Json.memberIfSome "details" (fun d => d) (e.details.map Json.canonical) := by
      cases e.details <;> rfl
    rw [hmap, settled_of_ne_null hd]
    refine .optional rfl ?_ ?_ (by rw [← ha]) rfl
    · intro j hj
      obtain ⟨d, he, rfl⟩ := Option.map_eq_some_iff.mp hj
      exact Json.asValue_outline ((h d he).mono (by decide)).canonical
    · intro j hj
      obtain ⟨d, he, rfl⟩ := Option.map_eq_some_iff.mp hj
      refine canonical_ne_null ?_
      rintro rfl
      exact hd he

theorem taken_latency {e a : LogEntry} (ha : a.latency = none) :
    Json.Field.Taken fields a
      (Json.memberIfSome "latency_ns" (fun n => .ofNat n.toNat) e.latency)
      { a with latency := e.latency } := by
  have hmap : Json.memberIfSome "latency_ns" (fun n => .ofNat n.toNat) e.latency =
      Json.memberIfSome "latency_ns" .ofNat (e.latency.map UInt64.toNat) := by
    cases e.latency <;> rfl
  have hback : (e.latency.map UInt64.toNat).map Nat.toUInt64 = e.latency := by
    cases e.latency <;> simp
  have hnone : { a with latency := (none : Option Nat).map Nat.toUInt64 } = a := by
    rw [Option.map_none, ← ha]
  have htaken : Json.Field.Taken fields a
      (Json.memberIfSome "latency_ns" .ofNat (e.latency.map UInt64.toNat))
      { a with latency := (e.latency.map UInt64.toNat).map Nat.toUInt64 } := by
    refine .optional rfl ?_ (by simp [Json.ofNat]) hnone rfl
    intro n hn
    obtain ⟨n, -, rfl⟩ := Option.map_eq_some_iff.mp hn
    exact Json.asNat_outline n.toNat_lt
  rwa [hmap, hback] at *

theorem taken_artifacts {e a : LogEntry} (ha : a.artifacts = none) :
    Json.Field.Taken fields a (Json.memberIfSome "artifact_refs" .ofStrings e.artifacts)
      { a with artifacts := e.artifacts } := by
  refine .optional rfl ?_ (by simp [Json.ofStrings]) (by rw [← ha]) rfl
  exact fun ss _ => Json.asList_outline fun _ _ => rfl

theorem ofJson_canonical {e : LogEntry} (h : e.Writable) :
    ofJson e.toJson.canonical = .ok e.settled := by
  have hcase (a : LogEntry) (ha : a.case = none) : Json.Field.Taken fields a
      (Json.memberIfSome "case" .string e.case) { a with case := e.case } :=
    .optional rfl (fun _ _ => rfl) (by simp) (by rw [← ha]) rfl
  have hevent (a : LogEntry) : Json.Field.Taken fields a [("event", .string e.event)]
      { a with event := e.event } :=
    .required rfl rfl rfl
  have hfamily (a : LogEntry) (ha : a.family = none) : Json.Field.Taken fields a
      (Json.memberIfSome "family" .string e.family) { a with family := e.family } :=
    .optional rfl (fun _ _ => rfl) (by simp) (by rw [← ha]) rfl
  have hlevel (a : LogEntry) : Json.Field.Taken fields a [("level", .string e.level.name)]
      { a with level := e.level } :=
    .required rfl (Json.asNamed_outline e.level.ofName?_name) rfl
  have houtcome (a : LogEntry) (ha : a.outcome = none) : Json.Field.Taken fields a
      (Json.memberIfSome "outcome" (fun o => .string o.name) e.outcome)
      { a with outcome := e.outcome } :=
    .optional rfl (fun o _ => Json.asNamed_outline o.ofName?_name) (by simp) (by rw [← ha]) rfl
  have hthreshold (a : LogEntry) (ha : a.threshold = none) : Json.Field.Taken fields a
      (Json.memberIfSome "threshold" .string e.threshold) { a with threshold := e.threshold } :=
    .optional rfl (fun _ _ => rfl) (by simp) (by rw [← ha]) rfl
  have htimestamp (a : LogEntry) : Json.Field.Taken fields a
      [("timestamp", .string e.timestamp)] { a with timestamp := e.timestamp } :=
    .required rfl rfl rfl
  have htraceId (a : LogEntry) : Json.Field.Taken fields a [("trace_id", .string e.traceId)]
      { a with traceId := e.traceId } :=
    .required rfl rfl rfl
  have hfirst := taken_artifacts (e := e)
    (a := { timestamp := "", traceId := "", level := .info, event := "" }) rfl
  rw [canonical_toJson, ofJson]
  refine Json.Field.Taken.asRecord ?_ e.ordered_sortedMembers.nodup ?_
  · exact (((((((((hfirst.append (hcase _ rfl)).append (taken_details h rfl)).append
      (hevent _)).append (hfamily _ rfl)).append (taken_latency rfl)).append (hlevel _)).append
      (houtcome _ rfl)).append (hthreshold _ rfl)).append (htimestamp _)).append (htraceId _)
  · intro f hf hp
    have hnames : ∀ f ∈ fields, f.presence = .required →
        f.name ∈ ["event", "level", "timestamp", "trace_id"] := by
      simp [fields, Json.Field.required, Json.Field.optional, Json.Field.reading]
    have hname := hnames f hf hp
    simp only [List.mem_cons, List.not_mem_nil, or_false] at hname
    rcases hname with h | h | h | h <;> simp [h, sortedMembers]

/-! ## The line -/

/-- A line begins and ends with a brace. -/
theorem toList_line (e : LogEntry) : ∃ inner, e.line.toList = '\x7b' :: (inner ++ ['\x7d']) := by
  rw [line, Json.compact, String.toList_ofList, toJson]
  exact Json.write_object _ _ _

theorem Writable.isLine {e : LogEntry} (h : e.Writable) : Text.IsLine e.line.toList := by
  refine ⟨?_, ?_⟩
  · intro hmem
    rw [line, Json.compact, String.toList_ofList] at hmem
    exact absurd (Json.compact_range e.toJson h.fits _ hmem) (by decide)
  · obtain ⟨inner, hinner⟩ := e.toList_line
    rw [hinner, ← List.cons_append, List.getLast?_concat]
    decide

theorem isBlank_line (e : LogEntry) : Unicode.isBlank e.line.toList = false := by
  obtain ⟨inner, hinner⟩ := e.toList_line
  have hbrace : Unicode.isWhiteSpace '\x7b' = false := by decide
  rw [hinner, Unicode.isBlank, List.all_cons, hbrace, Bool.false_and]

theorem ofLine_line {e : LogEntry} (h : e.Writable) :
    ofLine e.line.toList =
      if Text.colonParts e.traceId.toList < 3 then .error [.shortTraceId e.traceId]
      else .ok e.settled := by
  rw [line, Json.compact, String.toList_ofList, ofLine,
    Json.parse?_write Json.Layout.blank_compact h.fits]
  simp only [problems_canonical, ofJson_canonical h]
  split_ifs <;> rfl

end LogEntry

end PercentFormat
