import PercentFormat.Proofs.Conformance.EntryLines
import PercentFormat.Proofs.Json.Height

/-!
# Lines that are accepted

An accepted line may have members in any order, members that are passed over, names that stand twice
and white space. Nothing of that is left in the entry that is read, so writing the entry and reading
it again gives the same entry.
-/

namespace PercentFormat

namespace Json

/-- Details as they are read: not null, canonical, and not too deep for the entry around them. -/
structure Tidy (j : Json) : Prop where
  ne_null : j ≠ .null
  canonical : j.canonical = j
  height_lt : j.height < Outline.maxDepth

theorem of_asOption_asValue {j : Json} {x : Option Json}
    (h : asOption asValue j.outline = .ok x) {d : Json} (hd : d ∈ x) : d = j ∧ j ≠ .null := by
  unfold asOption at h
  split at h
  · obtain rfl := Except.ok.inj h
    exact absurd hd nofun
  · next hnull =>
    unfold asValue at h
    split at h
    · next k hk =>
      obtain rfl := Except.ok.inj h
      obtain rfl := Option.some.inj hd
      refine ⟨eq_of_value?_outline hk, ?_⟩
      rintro rfl
      exact hnull rfl
    · exact absurd h nofun

end Json

namespace LogEntry

/-! ## What a field sets -/

section

variable {f : Json.Field LogEntry} {a b : LogEntry} {o : Json.Outline}

theorem set_details (hf : f ∈ fields) (h : f.set a o = .ok b) :
    b.details = a.details ∨ Json.asOption Json.asValue o = .ok b.details := by
  simp only [fields, List.mem_cons, List.not_mem_nil, or_false] at hf
  rcases hf with rfl | rfl | rfl | rfl | rfl | rfl | rfl | rfl | rfl | rfl | rfl <;>
    obtain ⟨x, hx, rfl⟩ := Json.Field.set_reading_eq_ok.mp h
  all_goals first
    | exact .inl rfl
    | exact .inr hx

theorem set_traceId (hf : f ∈ fields) (h : f.set a o = .ok b) :
    (f.name ≠ "trace_id" ∧ b.traceId = a.traceId) ∨
      (f.name = "trace_id" ∧ Json.asString o = .ok b.traceId) := by
  simp only [fields, List.mem_cons, List.not_mem_nil, or_false] at hf
  rcases hf with rfl | rfl | rfl | rfl | rfl | rfl | rfl | rfl | rfl | rfl | rfl <;>
    obtain ⟨x, hx, rfl⟩ := Json.Field.set_reading_eq_ok.mp h
  all_goals first
    | exact .inl ⟨by decide, rfl⟩
    | exact .inr ⟨rfl, hx⟩

end

/-! ## What a line gives -/

theorem exists_traceId {j : Json} (h : problems j = []) :
    ∃ id ms, j = .object ms ∧ ms.lookup "trace_id" = some (.string id) ∧
      3 ≤ Text.colonParts id.toList := by
  obtain ⟨hproblems, -⟩ := List.append_eq_nil_iff.mp h
  obtain ⟨hmissing, hshort⟩ := List.append_eq_nil_iff.mp hproblems
  have hsome : textOf? "trace_id" j ≠ none := by
    have hnone := List.filter_eq_nil_iff.mp (List.map_eq_nil_iff.mp hmissing) "trace_id"
      (by decide)
    simpa using hnone
  obtain ⟨id, hid⟩ := Option.ne_none_iff_exists'.mp hsome
  rw [traceIdProblems, hid] at hshort
  obtain ⟨k, hk, hstring⟩ := Option.bind_eq_some_iff.mp hid
  cases j with
  | object ms =>
    cases k with
    | string s =>
      obtain rfl := Option.some.inj hstring
      refine ⟨s, ms, rfl, hk, ?_⟩
      by_contra hlt
      dsimp only at hshort
      rw [if_pos (Nat.lt_of_not_le hlt)] at hshort
      exact absurd hshort (List.cons_ne_nil _ _)
    | _ => cases hstring
  | _ => cases hk

/-- What holds of an entry while it is read: its details are tidy, and its trace id is the right one
once it is set. -/
structure Settling (id : String) (seen : List String) (e : LogEntry) : Prop where
  details : ∀ d ∈ e.details, d.Tidy
  traceId : "trace_id" ∈ seen → e.traceId = id

section

variable {ms : List (String × Json)} {id : String} (hordered : Json.Ordered ms)
  (hfixed : ∀ m ∈ ms, Json.canonicalMember m = m)
  (hheight : (Json.object ms).height ≤ Json.Outline.maxDepth)
  (hid : ms.lookup "trace_id" = some (.string id))

include hordered hfixed hheight hid

theorem Settling.set {f : Json.Field LogEntry} (hf : f ∈ fields) {o : Json.Outline}
    (ho : (some f.name, o) ∈ Json.memberOutlines ms) (seen : List String) (a b : LogEntry)
    (h : Settling id seen a) (hset : f.set a o = .ok b) : Settling id (f.name :: seen) b := by
  rw [Json.memberOutlines_eq_map] at ho
  obtain ⟨⟨name, j⟩, hm, heq⟩ := List.mem_map.mp ho
  obtain ⟨hname, rfl⟩ := Prod.mk.inj heq
  obtain rfl := Option.some.inj hname
  refine ⟨?_, ?_⟩
  · rcases set_details hf hset with hsame | hread
    · exact hsame ▸ h.details
    · intro d hd
      obtain ⟨rfl, hnull⟩ := Json.of_asOption_asValue hread hd
      have hcanonical := congrArg Prod.snd (hfixed _ hm)
      exact ⟨hnull, hcanonical, Nat.lt_of_lt_of_le (Json.height_lt_of_mem hm) hheight⟩
  · intro hseen
    rcases set_traceId hf hset with ⟨hne, hsame⟩ | ⟨hname, hread⟩
    · rw [hsame]
      exact h.traceId ((List.mem_cons.mp hseen).resolve_left (Ne.symm hne))
    · rw [hname] at hm
      obtain rfl := Option.some.inj ((hordered.lookup hm).symm.trans hid)
      exact (Except.ok.inj hread).symm

/-- What is read from an object in canonical form. -/
theorem ofJson_eq_ok {e : LogEntry} (h : ofJson (.object ms) = .ok e) :
    e.traceId = id ∧ ∀ d ∈ e.details, d.Tidy := by
  have hstart : Settling id [] { timestamp := "", traceId := "", level := .info, event := "" } :=
    ⟨by simp, by simp⟩
  obtain ⟨seen, hcomplete, hsettling⟩ := Json.Field.setMembers_induction
    (fun f hf o ho => Settling.set hordered hfixed hheight hid hf ho) hstart h
  have hseen := List.all_eq_true.mp hcomplete
    (.required "trace_id" Json.asString fun e traceId => { e with traceId }) (by simp [fields])
  refine ⟨hsettling.traceId ?_, hsettling.details⟩
  simpa [Json.Field.required, Json.Field.reading] using hseen

end

theorem ofLine_eq_ok {line : List Char} {e : LogEntry} (h : ofLine line = .ok e) :
    3 ≤ Text.colonParts e.traceId.toList ∧ ∀ d ∈ e.details, d.Tidy := by
  unfold ofLine at h
  split at h
  · exact absurd h nofun
  next j hj =>
  split at h
  · next hproblems =>
    split at h
    · next a ha =>
      obtain rfl := Except.ok.inj h
      obtain ⟨id, ms, hobject, hid, hparts⟩ := exists_traceId hproblems
      obtain ⟨hordered, hfixed⟩ := Json.ordered_of_canonical hobject
      have hheight := Nat.le_trans j.height_canonical_le (Json.height_le_of_parse? hj)
      rw [hobject] at ha hheight
      obtain ⟨rfl, hdetails⟩ := ofJson_eq_ok hordered hfixed hheight hid ha
      exact ⟨hparts, hdetails⟩
    · exact absurd h nofun
  · exact absurd h nofun

theorem ofNumberedLine_eq_ok {line : List Char} {number : Nat} {e : LogEntry} :
    ofNumberedLine line number = .ok e ↔ ofLine line = .ok e := by
  unfold ofNumberedLine
  split
  · next a ha => rw [ha, Except.ok.injEq, Except.ok.injEq]
  · next ps hps => simp [hps]

/-! ## Lines and entries -/

theorem settled_of_canonical {e : LogEntry} (h : ∀ d ∈ e.details, d.canonical = d) :
    e.settled = { e with details := match e.details with
      | some .null => none
      | d => d } := by
  refine congrArg (fun details => { e with details }) ?_
  cases hd : e.details with
  | none => rfl
  | some d =>
    have hcanonical := h d hd
    cases d with
    | null => rfl
    | _ => exact congrArg some hcanonical

theorem settled_of_tidy {e : LogEntry} (h : ∀ d ∈ e.details, d.Tidy) : e.settled = e := by
  rw [settled_of_canonical fun d hd => (h d hd).canonical]
  split
  · next hd => exact absurd rfl (h _ hd).ne_null
  · rfl

/-- Entries come back from their lines, without details that are null. An entry that was read from
any line comes back from its own line as it is. -/
theorem lines_settle (number : Nat) :
    (∀ e : LogEntry, 3 ≤ Text.colonParts e.traceId.toList → e.Writable →
      ofNumberedLine e.line.toList number = .ok e.settled ∧
      ((∀ d ∈ e.details, d.canonical = d) →
        e.settled = { e with details := match e.details with
          | some .null => none
          | d => d })) ∧
    ∀ (line : List Char) (e : LogEntry), ofNumberedLine line number = .ok e →
      (∀ d ∈ e.details, d.Integral) → ofNumberedLine e.line.toList number = .ok e := by
  have hback : ∀ e : LogEntry, 3 ≤ Text.colonParts e.traceId.toList → e.Writable →
      ofNumberedLine e.line.toList number = .ok e.settled := by
    intro e hparts h
    rw [ofNumberedLine_eq_ok, ofLine_line h, if_neg (Nat.not_lt.mpr hparts)]
  refine ⟨fun e hparts h => ⟨hback e hparts h, settled_of_canonical⟩, ?_⟩
  intro line e h hintegral
  obtain ⟨hparts, htidy⟩ := ofLine_eq_ok (ofNumberedLine_eq_ok.mp h)
  have hwritable : e.Writable := by
    intro d hd
    obtain ⟨k, hk⟩ := hintegral d hd
    exact hk.of_height (Nat.le_of_lt_succ (htidy d hd).height_lt)
  rw [hback e hparts hwritable, settled_of_tidy htidy]

def detailed : LogEntry where
  timestamp := "t"
  traceId := "a::b::c"
  level := .info
  event := "end"
  details := some (.object [("k", .number (.integer 1)), ("l", .null)])

/-- The entry with other members around, one name standing twice. -/
def disordered : Json :=
  .object [("event", .string "start"), ("more", .array []), ("event", .string "end"),
    ("details", .object [("l", .null), ("k", .number (.integer 1))]), ("level", .string "info"),
    ("trace_id", .string "a::b::c"), ("timestamp", .string "t")]

theorem lines_settle_detailed :
    ofNumberedLine disordered.pretty.toList 7 = .ok detailed ∧
      ofNumberedLine detailed.line.toList 7 = .ok detailed ∧ detailed.settled = detailed := by
  have hparts : 3 ≤ Text.colonParts detailed.traceId.toList := by decide
  have hone : Json.inRange 1 := by decide
  have hfits : ∀ d ∈ detailed.details, Json.Fits 126 d := by
    intro d hd
    obtain rfl := Option.some.inj hd
    exact ⟨hone, trivial, trivial⟩
  have hcanonical : ∀ d ∈ detailed.details, d.canonical = d := by
    intro d hd
    obtain rfl := Option.some.inj hd
    rfl
  have hline : ofNumberedLine disordered.pretty.toList 7 = .ok detailed := by
    have hparse : Json.parse? disordered.pretty.toList = some disordered := by
      rw [Json.pretty, String.toList_ofList]
      refine Json.parse?_write Json.Layout.blank_pretty ?_
      exact ⟨trivial, trivial, trivial, ⟨trivial, hone, trivial⟩, trivial, trivial, trivial, trivial⟩
    rw [ofNumberedLine_eq_ok, ofLine, hparse]
    rfl
  refine ⟨hline, (lines_settle 7).2 _ detailed hline fun d hd => ⟨126, hfits d hd⟩, ?_⟩
  exact ((lines_settle 7).1 detailed hparts hfits).2 hcanonical

end LogEntry

end PercentFormat
