import PercentFormat.Conformance.LogWriter
import PercentFormat.Proofs.Conformance.EntryLines
import PercentFormat.Proofs.Text.Decimal

/-!
# Logs that were written

Every entry comes back from the log on a line of its own. The checker has nothing to say of the
entries that the writer gave a trace id, whatever the name of the run; of the others it says which
ones came with a trace id that is too short.
-/

namespace PercentFormat

/-- An entry that came with a trace id of fewer than three parts. -/
def LogEntry.HasShortId (e : LogEntry) : Prop :=
  e.traceId ≠ "" ∧ Text.colonParts e.traceId.toList < 3

instance (e : LogEntry) : Decidable e.HasShortId := inferInstanceAs (Decidable (_ ∧ _))

/-- The errors of entries that stand on lines from some number on. -/
def Log.shortIds (number : Nat) (es : List LogEntry) : List LogError :=
  (es.zipIdx number).filterMap fun (e, n) =>
    if e.HasShortId then some ⟨n, .shortTraceId e.traceId⟩ else none

namespace Log

theorem shortIds_cons (number : Nat) (e : LogEntry) (es : List LogEntry) :
    shortIds number (e :: es) =
      (if e.HasShortId then [⟨number, .shortTraceId e.traceId⟩] else []) ++
        shortIds (number + 1) es := by
  rw [shortIds, shortIds, List.zipIdx_cons, List.filterMap_cons]
  by_cases hshort : e.HasShortId <;> simp [hshort]

theorem shortIds_eq_nil_iff {number : Nat} {es : List LogEntry} :
    shortIds number es = [] ↔ ∀ e ∈ es, ¬ e.HasShortId := by
  induction es generalizing number with
  | nil => simp [shortIds]
  | cons e es ih =>
    rw [shortIds_cons, List.append_eq_nil_iff, ih, List.forall_mem_cons]
    by_cases hshort : e.HasShortId <;> simp [hshort]

theorem field_shortIds {number : Nat} {es : List LogEntry} {err : LogError}
    (h : err ∈ shortIds number es) : err.problem.field = "trace_id" := by
  obtain ⟨⟨e, n⟩, -, herr⟩ := List.mem_filterMap.mp h
  dsimp only at herr
  split_ifs at herr
  rw [← Option.some.inj herr]
  rfl

end Log

namespace LogWriter

/-! ## Trace ids -/

theorem parts_traceId (runId : String) (n : Nat) :
    3 ≤ Text.colonParts (traceId runId n).toList := by
  have hfirst : Text.colonParts (traceId runId n).toList =
      Text.colonParts (runId.toList ++ ':' :: ':' :: (Decimal.padded 3 n).toList) + 1 := by
    simp [traceId, Text.colonParts]
  have hrun := Text.colonParts_append runId.toList (':' :: ':' :: (Decimal.padded 3 n).toList)
  have hlast := Text.colonParts_pos (Decimal.padded 3 n).toList
  rw [Text.colonParts_pair] at hrun
  omega

theorem traceId_injective (runId : String) : Function.Injective (traceId runId) := by
  intro m n h
  exact Decimal.padded_injective 3 (String.append_right_inj _ |>.mp h)

/-! ## One entry -/

section

variable (w : LogWriter) (e : LogEntry)

/-- An entry as the writer writes it. -/
def finished : LogEntry :=
  if e.traceId = "" then { e with traceId := traceId w.runId (w.issued + 1) } else e

theorem emit_fst : (w.emit e).1 = w.finished e := by
  unfold emit finished
  split <;> rfl

theorem runId_emit : (w.emit e).2.runId = w.runId := by
  unfold emit
  split <;> rfl

theorem issued_emit : (w.emit e).2.issued = w.issued + if e.traceId = "" then 1 else 0 := by
  unfold emit
  split <;> rfl

theorem content_emit : (w.emit e).2.content = w.content ++ (w.finished e).line ++ "\n" := by
  unfold emit finished
  split <;> rfl

theorem writable_finished {w : LogWriter} {e : LogEntry} (h : e.Writable) :
    (w.finished e).Writable := by
  unfold finished
  split <;> exact h

/-- The checker accepts the line of an entry unless it came with a short trace id. -/
theorem lineErrors_finished {w : LogWriter} {e : LogEntry} (h : e.Writable) (number : Nat) :
    Log.lineErrors (w.finished e).line.toList number =
      if e.HasShortId then [⟨number, .shortTraceId e.traceId⟩] else [] := by
  have hread := LogEntry.ofLine_line (writable_finished (w := w) h)
  rw [Log.lineErrors, LogEntry.isBlank_line, LogEntry.ofNumberedLine, hread]
  by_cases hid : e.traceId = ""
  · have hparts : ¬ Text.colonParts (w.finished e).traceId.toList < 3 := by
      rw [finished, if_pos hid]
      exact Nat.not_lt.mpr (parts_traceId w.runId (w.issued + 1))
    have hshort : ¬ e.HasShortId := fun h => h.1 hid
    simp [hparts, hshort]
  · have hsame : w.finished e = e := if_neg hid
    rw [hsame]
    by_cases hparts : Text.colonParts e.traceId.toList < 3 <;>
      simp [LogEntry.HasShortId, hid, hparts]

end

theorem issued_emit_le {w : LogWriter} (h : w.issued ≤ w.content.utf8ByteSize) (e : LogEntry) :
    (w.emit e).2.issued ≤ (w.emit e).2.content.utf8ByteSize := by
  have hend : "\n".utf8ByteSize = 1 := rfl
  rw [issued_emit, content_emit, String.utf8ByteSize_append, String.utf8ByteSize_append, hend]
  split <;> omega

/-! ## All entries -/

/-- How many entries have no trace id. -/
def unnamed (es : List LogEntry) : Nat := es.countP (·.traceId = "")

theorem emitAll_cons (w : LogWriter) (e : LogEntry) (es : List LogEntry) :
    w.emitAll (e :: es) =
      (w.finished e :: ((w.emit e).2.emitAll es).1, ((w.emit e).2.emitAll es).2) := by
  rw [← emit_fst]
  rfl

theorem emitAll_append (w : LogWriter) (es fs : List LogEntry) :
    (w.emitAll (es ++ fs)).2 = ((w.emitAll es).2.emitAll fs).2 := by
  induction es generalizing w with
  | nil => rfl
  | cons e es ih => rw [List.cons_append, emitAll_cons, emitAll_cons, ih]

theorem length_emitAll (w : LogWriter) (es : List LogEntry) :
    (w.emitAll es).1.length = es.length := by
  induction es generalizing w with
  | nil => rfl
  | cons e es ih => rw [emitAll_cons, List.length_cons, ih, List.length_cons]

/-- No more numbers are given out than the text has bytes. -/
theorem issued_emitAll_le {w : LogWriter} (h : w.issued ≤ w.content.utf8ByteSize)
    (es : List LogEntry) :
    (w.emitAll es).2.issued ≤ (w.emitAll es).2.content.utf8ByteSize := by
  induction es generalizing w with
  | nil => exact h
  | cons e es ih =>
    rw [emitAll_cons]
    exact ih (issued_emit_le h e)

theorem getElem?_emitAll (w : LogWriter) {es : List LogEntry} {i : Nat} {e : LogEntry}
    (h : es[i]? = some e) :
    (w.emitAll es).1[i]? = some (if e.traceId = "" then
      { e with traceId := traceId w.runId (w.issued + unnamed (es.take (i + 1))) } else e) := by
  induction es generalizing w i with
  | nil => simp at h
  | cons a es ih =>
    rw [emitAll_cons]
    cases i with
    | zero =>
      rw [List.getElem?_cons_zero, Option.some.injEq] at h
      subst h
      by_cases hid : a.traceId = "" <;> simp [finished, unnamed, hid]
    | succ i =>
      rw [List.getElem?_cons_succ] at h ⊢
      have hcount : (w.emit a).2.issued + unnamed (es.take (i + 1)) =
          w.issued + unnamed ((a :: es).take (i + 2)) := by
        rw [issued_emit, unnamed, unnamed, List.take_succ_cons, List.countP_cons]
        simp only [decide_eq_true_eq]
        omega
      rw [ih (w.emit a).2 h, runId_emit, hcount]

theorem toList_content_emitAll (w : LogWriter) (es : List LogEntry) :
    (w.emitAll es).2.content.toList =
      w.content.toList ++ ((w.emitAll es).1.map (·.line.toList)).flatMap (· ++ ['\n']) := by
  induction es generalizing w with
  | nil => simp [emitAll]
  | cons e es ih =>
    rw [emitAll_cons]
    simp only [ih, content_emit, String.toList_append, List.map_cons, List.flatMap_cons,
      List.append_assoc]
    rfl

theorem writable_emitAll (w : LogWriter) {es : List LogEntry} (h : ∀ e ∈ es, e.Writable) :
    ∀ e ∈ (w.emitAll es).1, e.Writable := by
  induction es generalizing w with
  | nil => exact fun e he => absurd he List.not_mem_nil
  | cons a es ih =>
    obtain ⟨ha, hes⟩ := List.forall_mem_cons.mp h
    rw [emitAll_cons]
    exact List.forall_mem_cons.mpr ⟨writable_finished ha, ih _ hes⟩

theorem errorsFrom_emitAll (w : LogWriter) {es : List LogEntry} (h : ∀ e ∈ es, e.Writable)
    (number : Nat) :
    Log.errorsFrom number ((w.emitAll es).1.map (·.line.toList)) = Log.shortIds number es := by
  induction es generalizing w number with
  | nil => rfl
  | cons e es ih =>
    obtain ⟨he, hes⟩ := List.forall_mem_cons.mp h
    rw [emitAll_cons, List.map_cons, Log.errorsFrom, lineErrors_finished he, ih _ hes,
      Log.shortIds_cons]

/-- The checker on a whole log. -/
theorem check_emitAll (runId : String) {es : List LogEntry} (h : ∀ e ∈ es, e.Writable) :
    Log.errors (({ runId } : LogWriter).emitAll es).2.content = Log.shortIds 1 es ∧
      Log.entryCount (({ runId } : LogWriter).emitAll es).2.content = es.length := by
  have hwritable := writable_emitAll { runId } h
  have hlines : Text.lines (({ runId } : LogWriter).emitAll es).2.content.toList =
      (({ runId } : LogWriter).emitAll es).1.map (·.line.toList) := by
    rw [toList_content_emitAll]
    refine Text.lines_terminated ?_
    intro line hline
    obtain ⟨e, he, rfl⟩ := List.mem_map.mp hline
    exact (hwritable e he).isLine
  refine ⟨?_, ?_⟩
  · rw [Log.errors, hlines, errorsFrom_emitAll _ h]
  · rw [Log.entryCount, hlines, List.countP_map, List.countP_eq_length.mpr ?_, length_emitAll]
    intro e _
    simp [LogEntry.isBlank_line]

/-! ## Agreement -/

theorem unnamed_take_succ {es : List LogEntry} {i : Nat} {e : LogEntry} (h : es[i]? = some e)
    (hid : e.traceId = "") : unnamed (es.take (i + 1)) = unnamed (es.take i) + 1 := by
  rw [unnamed, unnamed, List.take_add_one, h, Option.toList_some, List.countP_append,
    List.countP_singleton]
  simp [hid]

/-- The number of a later entry is greater. -/
theorem unnamed_take_lt {es : List LogEntry} {i j : Nat} {e : LogEntry} (hlt : i < j)
    (h : es[j]? = some e) (hid : e.traceId = "") :
    unnamed (es.take (i + 1)) < unnamed (es.take (j + 1)) := by
  have htake : es.take (i + 1) = (es.take j).take (i + 1) := by
    rw [List.take_take, Nat.min_eq_left hlt]
  have hle : unnamed (es.take (i + 1)) ≤ unnamed (es.take j) := by
    rw [htake]
    exact (List.take_sublist _ _).countP_le
  rw [unnamed_take_succ h hid]
  omega

/-- What a writer makes of entries: those that come with a trace id stay, the others are
numbered. -/
structure Writes (runId : String) (es written : List LogEntry) : Prop where
  length : written.length = es.length
  named : ∀ (i : Nat) (e : LogEntry), es[i]? = some e → e.traceId ≠ "" →
    written[i]? = some e
  numbered : ∀ (i : Nat) (e : LogEntry), es[i]? = some e → e.traceId = "" → ∃ digits,
    Decimal.Pads 3 (unnamed (es.take (i + 1))) digits ∧
      written[i]? = some { e with traceId := "strfmt::" ++ runId ++ "::" ++ digits }
  distinct : ∀ (i j : Nat) (e f : LogEntry), i < j → es[i]? = some e → es[j]? = some f →
    e.traceId = "" → f.traceId = "" →
    written[i]?.map LogEntry.traceId ≠ written[j]?.map LogEntry.traceId

theorem writes_emitAll (runId : String) (es : List LogEntry) :
    Writes runId es (({ runId } : LogWriter).emitAll es).1 := by
  have hwritten {i : Nat} {e : LogEntry} (h : es[i]? = some e) (hid : e.traceId = "") :
      (({ runId } : LogWriter).emitAll es).1[i]? =
        some { e with traceId := traceId runId (unnamed (es.take (i + 1))) } := by
    have hentry := getElem?_emitAll { runId } h
    rwa [if_pos hid, Nat.zero_add] at hentry
  refine ⟨length_emitAll _ es, ?_, ?_, ?_⟩
  · intro i e h hid
    have hentry := getElem?_emitAll { runId } h
    rwa [if_neg hid] at hentry
  · intro i e h hid
    exact ⟨_, Decimal.pads_padded (by decide) _, hwritten h hid⟩
  · intro i j e f hlt hi hj he hf heq
    rw [hwritten hi he, hwritten hj hf, Option.map_some, Option.map_some, Option.some.injEq] at heq
    exact absurd (traceId_injective runId heq) (Nat.ne_of_lt (unnamed_take_lt hlt hj hf))

/-- Writer and checker agree. The log has the lines of the entries with their trace ids filled in;
the checker counts them, or names those that came with a short trace id. -/
theorem log_agrees (runId : String) {es : List LogEntry} (h : ∀ e ∈ es, e.Writable) :
    Writes runId es (({ runId } : LogWriter).emitAll es).1 ∧
      (({ runId } : LogWriter).emitAll es).2.content.toList =
        ((({ runId } : LogWriter).emitAll es).1.map (·.line.toList)).flatMap (· ++ ['\n']) ∧
      ((∀ e ∈ es, ¬ e.HasShortId) →
        Log.check (({ runId } : LogWriter).emitAll es).2.content = .ok es.length) ∧
      ((∃ e ∈ es, e.HasShortId) →
        Log.check (({ runId } : LogWriter).emitAll es).2.content = .error (Log.shortIds 1 es)) ∧
      ∀ err ∈ Log.shortIds 1 es, err.problem.field = "trace_id" := by
  obtain ⟨herrors, hcount⟩ := check_emitAll runId h
  refine ⟨writes_emitAll runId es, ?_, ?_, ?_, ?_⟩
  · exact toList_content_emitAll { runId } es
  · intro hall
    rw [Log.check, herrors, Log.shortIds_eq_nil_iff.mpr hall, hcount]
  · rintro ⟨e, he, hshort⟩
    obtain ⟨err, errs, herrs⟩ := List.exists_cons_of_ne_nil (l := Log.shortIds 1 es)
      fun hnone => Log.shortIds_eq_nil_iff.mp hnone e he hshort
    rw [Log.check, herrors, herrs]
  · exact fun err herr => Log.field_shortIds herr

theorem log_agrees_short : Log.check (({ runId := ":\n::" } : LogWriter).emitAll
    [{ timestamp := "", traceId := "", level := .info, event := "a\nb", case := some "\"",
       details := some (.object [("n", .array [.null, .ofNat 7])]) },
     { timestamp := "", traceId := "a:::b", level := .warn, event := "", artifacts := some [] },
     { timestamp := "", traceId := "a::b::", level := .warn, event := "" }]).2.content =
      .error [⟨2, .shortTraceId "a:::b"⟩] := by
  refine (log_agrees ":\n::" ?_).2.2.2.1 ⟨_, .tail _ (.head _), by decide⟩
  simp [LogEntry.Writable, Json.Fits, Json.ItemsFit, Json.MembersFit, Json.ofNat, Json.inRange]

end LogWriter

end PercentFormat
