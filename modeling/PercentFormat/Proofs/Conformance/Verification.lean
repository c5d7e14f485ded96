import PercentFormat.Conformance.Verification
import PercentFormat.Proofs.Conformance.FixtureText
import PercentFormat.Proofs.Conformance.LogAgreement
import PercentFormat.Proofs.Conformance.Reported
import PercentFormat.Proofs.Text.Utf8

/-!
# Verification

On a reliable host a verification comes to its end: it runs every case under every threshold,
stores report and log, finds its own log in order, and fails only when a case failed.
-/

namespace PercentFormat

/-! ## The log of a run -/

/-- An entry that gets its trace id from the writer. -/
structure LogEntry.Plain (e : LogEntry) : Prop where
  writable : e.Writable
  unnamed : e.traceId = ""

/-- A log to which only such entries were added, and how many. -/
def LogWriter.Keeps (w : LogWriter) (n : Nat) : Prop :=
  ∃ runId es, w = (({ runId } : LogWriter).emitAll es).2 ∧ es.length = n ∧
    ∀ e ∈ es, LogEntry.Plain e

namespace LogWriter

theorem keeps_new (runId : String) : ({ runId } : LogWriter).Keeps 0 :=
  ⟨runId, [], rfl, rfl, fun _ he => absurd he List.not_mem_nil⟩

variable {w : LogWriter} {n : Nat}

theorem Keeps.emitAll (h : w.Keeps n) {es : List LogEntry} (hes : ∀ e ∈ es, e.Plain) :
    (w.emitAll es).2.Keeps (n + es.length) := by
  obtain ⟨runId, fs, rfl, rfl, hfs⟩ := h
  refine ⟨runId, fs ++ es, (emitAll_append _ fs es).symm, List.length_append, ?_⟩
  intro e he
  exact (List.mem_append.mp he).elim (hfs e) (hes e)

theorem Keeps.emit (h : w.Keeps n) {e : LogEntry} (he : e.Plain) : (w.emit e).2.Keeps (n + 1) := by
  have hone : ∀ f ∈ [e], f.Plain := List.forall_mem_singleton.mpr he
  exact h.emitAll hone

/-- The checker has nothing to say of such a log. -/
theorem Keeps.check (h : w.Keeps n) : Log.errors w.content = [] ∧ Log.check w.content = .ok n := by
  obtain ⟨runId, es, rfl, rfl, hes⟩ := h
  obtain ⟨herrors, hcount⟩ := check_emitAll runId fun e he => (hes e he).writable
  have hnone : Log.shortIds 1 es = [] :=
    Log.shortIds_eq_nil_iff.mpr fun e he hshort => hshort.1 (hes e he).unnamed
  rw [hnone] at herrors
  refine ⟨herrors, ?_⟩
  rw [Log.check, herrors, hcount]

end LogWriter

namespace Verification

theorem plain_startEntry {v : Verification} {n : Nat} (hpasses : v.passes < 2 ^ 64)
    (hn : n < 2 ^ 64) (time : String) : (startEntry v time n).Plain := by
  refine ⟨?_, rfl⟩
  intro d hd
  rw [← Option.some.inj hd]
  exact ⟨Json.fits_ofNat hn, Json.fits_ofNat hpasses, trivial⟩

theorem plain_caseEntry (time : String) (t : Threshold) (verdict : Verdict) :
    (caseEntry time t verdict).Plain := by
  refine ⟨?_, rfl⟩
  intro d hd
  rw [caseEntry] at hd
  split at hd
  · exact absurd hd (by simp)
  · rw [← Option.some.inj hd]
    exact ⟨trivial, trivial, trivial⟩

theorem plain_setEntry (time : String) (t : Threshold) (s : FixtureSet) (elapsed : UInt64) :
    (setEntry time t s elapsed).Plain :=
  ⟨fun _ hd => absurd hd (by simp [setEntry]), rfl⟩

theorem plain_endEntry (v : Verification) (time : String) (passed : Bool)
    (artifacts : List String) : (endEntry v time passed artifacts).Plain :=
  ⟨fun _ hd => absurd hd (by simp [endEntry]), rfl⟩

/-! ## Running the cases -/

/-- How many entries a run of some sets adds to the log. -/
def entriesOf (sets : List FixtureSet) : Nat := (sets.map fun s => s.cases.length + 1).sum

section

variable {σ : Type} {h : Host (StateM σ)} {holds : σ → Files → Prop} {paths : List String}
  {files : Files} {v : Verification} {sets : List FixtureSet}

theorem runs_runSet (hr : h.Reliable holds paths) (t : Threshold) (s : FixtureSet)
    {p : Progress × Runner} {n : Nat} (hlog : p.1.log.Keeps n) :
    Runs holds files (runSet h t s p) fun q files' => files' = files ∧
      q.1.verdicts = p.1.verdicts ++ (p.2.run s).1 ∧ q.2 = (p.2.run s).2 ∧
      q.1.log.Keeps (n + (s.cases.length + 1)) := by
  unfold runSet
  refine (hr.timed files _).bind ?_
  rintro ⟨⟨verdicts, runner⟩, elapsed⟩ _ ⟨hrun, rfl⟩
  refine (hr.now _).bind ?_
  rintro time _ rfl
  refine .pure ⟨rfl, by rw [← hrun], by rw [← hrun], ?_⟩
  have hlength : verdicts.length = s.cases.length := by
    have heq := congrArg (fun r => r.1.length) hrun
    exact heq.trans (Runner.length_runCases _ _ _)
  have hplain : ∀ e ∈ verdicts.map (caseEntry time t) ++ [setEntry time t s elapsed], e.Plain := by
    rw [List.forall_mem_append, List.forall_mem_singleton, List.forall_mem_map]
    exact ⟨fun verdict _ => plain_caseEntry time t verdict, plain_setEntry time t s elapsed⟩
  have hentries := hlog.emitAll hplain
  rwa [List.length_append, List.length_map, hlength] at hentries

/-- What is kept while some sets are left to run: verdicts and log come to the same in the end. -/
structure SetsLeft (all : List Verdict) (n : Nat) (rest : List FixtureSet)
    (q : Progress × Runner) : Prop where
  verdicts : q.1.verdicts ++ (q.2.runEach rest).1 = all
  log : ∃ k, q.1.log.Keeps k ∧ k + entriesOf rest = n

theorem SetsLeft.runs_runSet (hr : h.Reliable holds paths) (t : Threshold) {all : List Verdict}
    {n : Nat} {s : FixtureSet} {rest : List FixtureSet} {q : Progress × Runner}
    (hq : SetsLeft all n (s :: rest) q) :
    Runs holds files (runSet h t s q) fun q' files' =>
      files' = files ∧ SetsLeft all n rest q' := by
  obtain ⟨hverdicts, k, hkeeps, hk⟩ := hq
  refine (Verification.runs_runSet hr t s hkeeps).mono ?_
  rintro q' _ ⟨rfl, hnew, hrunner, hkeeps'⟩
  refine ⟨rfl, ?_, _, hkeeps', ?_⟩
  · rw [hnew, hrunner, ← hverdicts, List.append_assoc]
    rfl
  · rw [← hk, entriesOf, entriesOf, List.map_cons, List.sum_cons]
    omega

theorem runs_runSets (hr : h.Reliable holds paths) (t : Threshold) {p : Progress} {n : Nat}
    (hlog : p.log.Keeps n) :
    Runs holds files (runSets h v sets p t) fun q files' => files' = files ∧
      q.verdicts = p.verdicts ++ v.verdictsUnder sets t ∧
      q.log.Keeps (n + entriesOf sets) := by
  have hleft : SetsLeft (p.verdicts ++ v.verdictsUnder sets t) (n + entriesOf sets) sets
      (p, Runner.new "fixture-verify" t v.passes) := ⟨rfl, n, hlog, rfl⟩
  refine (Runs.foldlM _ (fun q s rest hq => hq.runs_runSet hr t) hleft).bind ?_
  rintro q _ ⟨rfl, hverdicts, k, hkeeps, hk⟩
  refine .pure ⟨rfl, ?_, ?_⟩
  · rw [← hverdicts]
    exact (List.append_nil _).symm
  · rw [← hk]
    exact hkeeps

/-- What is kept while some thresholds are left. -/
structure ThresholdsLeft (v : Verification) (sets : List FixtureSet) (n : Nat)
    (rest : List Threshold) (p : Progress) : Prop where
  verdicts : p.verdicts ++ rest.flatMap (v.verdictsUnder sets) = v.allVerdicts sets
  log : ∃ k, p.log.Keeps k ∧ k + rest.length * entriesOf sets = n

theorem ThresholdsLeft.runs_runSets (hr : h.Reliable holds paths) {n : Nat} {t : Threshold}
    {rest : List Threshold} {p : Progress} (hp : ThresholdsLeft v sets n (t :: rest) p) :
    Runs holds files (runSets h v sets p t) fun p' files' =>
      files' = files ∧ ThresholdsLeft v sets n rest p' := by
  obtain ⟨hverdicts, k, hkeeps, hk⟩ := hp
  refine (Verification.runs_runSets hr t hkeeps).mono ?_
  rintro q _ ⟨rfl, hnew, hkeeps'⟩
  refine ⟨rfl, ?_, _, hkeeps', ?_⟩
  · rw [hnew, ← hverdicts, List.append_assoc, List.flatMap_cons]
  · rw [← hk, List.length_cons, Nat.succ_mul]
    omega

theorem runs_runAll (hr : h.Reliable holds paths) (hpasses : v.passes < 2 ^ 64)
    (hsets : sets.length < 2 ^ 64) {log : LogWriter} (hlog : log.Keeps 0) :
    Runs holds files (runAll h v sets log) fun p files' => files' = files ∧
      p.verdicts = v.allVerdicts sets ∧
      p.log.Keeps (1 + v.thresholds.length * entriesOf sets) := by
  unfold runAll
  refine (hr.now files).bind ?_
  rintro time _ rfl
  have hleft : ThresholdsLeft v sets (0 + 1 + v.thresholds.length * entriesOf sets) v.thresholds
      ⟨[], (log.emit (startEntry v time sets.length)).2⟩ :=
    ⟨rfl, _, hlog.emit (plain_startEntry hpasses hsets time), rfl⟩
  refine (Runs.foldlM _ (fun p t rest hp => hp.runs_runSets hr) hleft).mono ?_
  rintro p _ ⟨rfl, hverdicts, k, hkeeps, hk⟩
  refine ⟨rfl, ?_, ?_⟩
  · rw [← hverdicts]
    exact (List.append_nil _).symm
  · rw [Nat.zero_add] at hk
    rw [← hk]
    simpa using hkeeps

/-! ## Writing files -/

theorem succeeds_save (hr : h.Reliable holds paths) {path : String} (hp : path ∈ paths)
    (text : String) :
    Succeeds holds files (save h path text) fun _ files' =>
      files' = files.write path text.toUTF8 := by
  refine (Succeeds.lift (hr.write files path hp text.toUTF8)).bind ?_
  rintro _ _ ⟨rfl, rfl⟩
  exact .pure rfl

theorem succeeds_indexFile (hr : h.Reliable holds paths) {path : String} (hp : path ∈ paths)
    {bytes : ByteArray} (hb : files path = some bytes) (kind : String) (index : ArtifactIndex) :
    Succeeds holds files (indexFile h path kind index) fun _ files' => files' = files := by
  refine (Succeeds.lift (hr.read files path hp bytes hb)).bind ?_
  rintro _ _ ⟨rfl, rfl⟩
  exact .pure rfl

theorem succeeds_saveReport (hr : h.Reliable holds paths) {path : String} (hp : path ∈ paths)
    (hjson : Path.withExtension path "json" ∈ paths) (hne : path ≠ Path.withExtension path "json")
    (r : Report) (index : ArtifactIndex) :
    Succeeds holds files (saveReport h path r index) fun _ files' =>
      files' = (files.write path r.markdown.toUTF8).write (Path.withExtension path "json")
        r.text.toUTF8 := by
  have hstored : ((files.write path r.markdown.toUTF8).write (Path.withExtension path "json")
      r.text.toUTF8) path = some r.markdown.toUTF8 := by
    rw [Files.write_of_ne _ hne, Files.write_self]
  refine (Succeeds.lift (hr.notify files _)).bind ?_
  rintro _ _ rfl
  refine (succeeds_save hr hp _).bind ?_
  rintro _ _ rfl
  refine (succeeds_save hr hjson _).bind ?_
  rintro _ _ rfl
  refine (succeeds_indexFile hr hp hstored _ _).bind ?_
  rintro index' _ rfl
  exact succeeds_indexFile hr hjson (Files.write_self ..) _ _

theorem runs_readText (hr : h.Reliable holds paths) {path : String} (hp : path ∈ paths)
    {text : String} (hb : files path = some text.toUTF8) :
    Runs holds files (FixtureSet.readText h path) fun r files' =>
      r = .ok text ∧ files' = files := by
  refine (hr.read files path hp _ hb).bind ?_
  rintro _ _ ⟨rfl, rfl⟩
  simp only [fromUTF8?_toUTF8]
  exact .pure ⟨rfl, rfl⟩

/-- The log that was stored is found in order. -/
theorem succeeds_saveIndex (hr : h.Reliable holds paths) {path : String} (hp : path ∈ paths)
    (hindex : Path.withExtension path "index.json" ∈ paths) {w : LogWriter} {n : Nat}
    (hw : w.Keeps n) (hb : files path = some w.content.toUTF8) (index : ArtifactIndex) :
    Succeeds holds files (saveIndex h path index) fun _ files' =>
      ∃ bytes, files' = files.write (Path.withExtension path "index.json") bytes := by
  refine (Succeeds.lift (runs_readText hr hp hb)).bind ?_
  rintro _ _ ⟨rfl, rfl⟩
  simp only [hw.check.1]
  refine (succeeds_indexFile hr hp hb _ _).bind ?_
  rintro index' _ rfl
  refine (succeeds_save hr hindex _).bind ?_
  rintro _ _ rfl
  refine (Succeeds.lift (hr.notify _ _)).mono ?_
  rintro _ _ ⟨_, rfl, rfl⟩
  exact ⟨(), rfl, _, rfl⟩

end

/-! ## The end -/

def reportPaths (path : String) : List String := [path, Path.withExtension path "json"]

def logPaths (path : String) : List String := [path, Path.withExtension path "index.json"]

/-- All paths that a verification writes to. -/
def paths (v : Verification) : List String :=
  v.report.toList.flatMap reportPaths ++ v.log.toList.flatMap logPaths

/-- The report is where it was asked for, in both its forms. -/
def ReportStored (v : Verification) (r : Report) (files : Files) : Prop :=
  ∀ path ∈ v.report, files path = some r.markdown.toUTF8 ∧
    files (Path.withExtension path "json") = some r.text.toUTF8

/-- The log is where it was asked for, with some number of entries. -/
def LogStored (v : Verification) (n : Nat) (files : Files) : Prop :=
  ∀ path ∈ v.log, ∃ content : String,
    files path = some content.toUTF8 ∧ Log.check content = .ok n

/-- What a verification comes to. -/
def outcome (s : Summary) : Except Failure Unit :=
  if s.allPassed then .ok () else .error (.failedCases s.failed s.total)

section

variable {σ : Type} {h : Host (StateM σ)} {holds : σ → Files → Prop} {files : Files}
  {v : Verification}

/-- The log does not overwrite the report. -/
theorem ReportStored.write {r : Report} (hnodup : v.paths.Nodup) {path : String}
    (hpath : path ∈ v.log.toList.flatMap logPaths) (hstored : v.ReportStored r files)
    (bytes : ByteArray) : v.ReportStored r (files.write path bytes) := by
  intro p hp
  obtain ⟨hmarkdown, hjson⟩ := hstored p hp
  have hapart : ∀ q ∈ reportPaths p, q ≠ path := by
    intro q hq
    have hmem : q ∈ v.report.toList.flatMap reportPaths :=
      List.mem_flatMap.mpr ⟨p, Option.mem_toList.mpr hp, hq⟩
    exact (List.nodup_append.mp hnodup).2.2 q hmem path hpath
  refine ⟨?_, ?_⟩
  · rw [Files.write_of_ne files (hapart p (by simp [reportPaths])), hmarkdown]
  · rw [Files.write_of_ne files (hapart _ (by simp [reportPaths])), hjson]

/-- The report, where one is asked for. -/
def reporting (h : Host (StateM σ)) (v : Verification) (r : Report) (log : LogWriter)
    (index : ArtifactIndex) : ExceptT Failure (StateM σ) ArtifactIndex :=
  match v.report with
  | none => pure index
  | some path => tryCatch (saveReport h path r index) fun failure => do
    saveLog h v log
    throw failure

/-- The index of the log, where one is kept. -/
def indexing (h : Host (StateM σ)) (v : Verification) (index : ArtifactIndex) :
    ExceptT Failure (StateM σ) Unit :=
  match v.log with
  | some path => saveIndex h path index
  | none => pure ()

/-- The steps of the end, one after the other. -/
theorem finish_eq (h : Host (StateM σ)) (v : Verification) (r : Report) (log : LogWriter) :
    finish h v r log = (do
      let time ← ExceptT.lift h.now
      let index ← reporting h v r log { runId := log.runId, generated := time }
      let time ← ExceptT.lift h.now
      saveLog h v (log.emit (endEntry v time r.summary.allPassed
        (index.artifacts.map Artifact.path))).2
      indexing h v index
      ExceptT.mk (pure (outcome r.summary))) := by
  have hlast : (if (!r.summary.allPassed) = true
      then throw (.failedCases r.summary.failed r.summary.total) else pure ()) =
      (ExceptT.mk (pure (outcome r.summary)) : ExceptT Failure (StateM σ) Unit) := by
    unfold outcome
    cases r.summary.allPassed <;> rfl
  unfold finish reporting indexing
  simp only [hlast]
  cases v.report <;> cases v.log <;> rfl

theorem succeeds_reporting (hr : h.Reliable holds v.paths) (hnodup : v.paths.Nodup) (r : Report)
    (log : LogWriter) (index : ArtifactIndex) :
    Succeeds holds files (reporting h v r log index) fun _ files' => v.ReportStored r files' := by
  unfold reporting
  cases hreport : v.report with
  | none => exact .pure fun p hp => absurd hp (by simp [hreport])
  | some path =>
    have hmem : ∀ p ∈ reportPaths path, p ∈ v.paths := by
      intro p hp
      refine List.mem_append_left _ (List.mem_flatMap.mpr ⟨path, ?_, hp⟩)
      simp [hreport]
    have hne : path ≠ Path.withExtension path "json" := by
      have hpair := (List.nodup_append.mp hnodup).1
      rw [hreport, Option.toList_some, List.flatMap_singleton] at hpair
      exact (List.nodup_cons.mp hpair).1 ∘ List.mem_singleton.mpr
    refine Succeeds.tryCatch ((succeeds_saveReport hr (hmem _ (by simp [reportPaths]))
      (hmem _ (by simp [reportPaths])) hne r index).mono ?_)
    rintro _ _ ⟨index', rfl, rfl⟩
    refine ⟨index', rfl, ?_⟩
    intro p hp
    rw [hreport, Option.mem_some_iff] at hp
    subst hp
    exact ⟨by rw [Files.write_of_ne _ hne, Files.write_self], Files.write_self ..⟩

/-- The log and its index are stored beside the report. -/
theorem succeeds_logging (hr : h.Reliable holds v.paths) (hnodup : v.paths.Nodup) {r : Report}
    {w : LogWriter} {n : Nat} (hw : w.Keeps n) (hreport : v.ReportStored r files)
    (index : ArtifactIndex) :
    Succeeds holds files (saveLog h v w >>= fun _ => indexing h v index) fun _ files' =>
      v.ReportStored r files' ∧ v.LogStored n files' := by
  unfold saveLog indexing
  cases hlog : v.log with
  | none => exact .pure ⟨hreport, fun p hp => absurd hp (by simp [hlog])⟩
  | some path =>
    have hlogMem : ∀ p ∈ logPaths path, p ∈ v.log.toList.flatMap logPaths := by
      intro p hp
      exact List.mem_flatMap.mpr ⟨path, by simp [hlog], hp⟩
    have hmem : ∀ p ∈ logPaths path, p ∈ v.paths :=
      fun p hp => List.mem_append_right _ (hlogMem p hp)
    have hfirst : path ∈ logPaths path := by simp [logPaths]
    have hsecond : Path.withExtension path "index.json" ∈ logPaths path := by simp [logPaths]
    have hne : path ≠ Path.withExtension path "index.json" := by
      have hpair := (List.nodup_append.mp hnodup).2.1
      rw [hlog, Option.toList_some, List.flatMap_singleton] at hpair
      exact (List.nodup_cons.mp hpair).1 ∘ List.mem_singleton.mpr
    refine (succeeds_save hr (hmem _ hfirst) _).bind ?_
    rintro _ _ rfl
    refine (succeeds_saveIndex hr (hmem _ hfirst) (hmem _ hsecond) hw (Files.write_self ..)
      index).mono ?_
    rintro _ _ ⟨u, rfl, bytes, rfl⟩
    refine ⟨u, rfl, ?_, ?_⟩
    · exact (hreport.write hnodup (hlogMem _ hfirst) _).write hnodup (hlogMem _ hsecond) _
    · intro p hp
      rw [hlog, Option.mem_some_iff] at hp
      subst hp
      exact ⟨_, by rw [Files.write_of_ne _ hne, Files.write_self], hw.check.2⟩

theorem runs_finish (hr : h.Reliable holds v.paths) (hnodup : v.paths.Nodup) (r : Report)
    {log : LogWriter} {n : Nat} (hlog : log.Keeps n) :
    Runs holds files (finish h v r log).run fun result files' => result = outcome r.summary ∧
      v.ReportStored r files' ∧ v.LogStored (n + 1) files' := by
  rw [finish_eq]
  refine (Succeeds.lift (hr.now files)).andThen ?_
  rintro time _ rfl
  refine (succeeds_reporting hr hnodup r log _).andThen ?_
  intro index files' hreport
  refine (Succeeds.lift (hr.now files')).andThen ?_
  rintro time' _ rfl
  rw [← bind_assoc]
  have hlast := hlog.emit (plain_endEntry v time' r.summary.allPassed
    (index.artifacts.map Artifact.path))
  refine (succeeds_logging hr hnodup hlast hreport index).andThen ?_
  intro _ files'' hstored
  exact .pure ⟨rfl, hstored⟩

/-! ## The whole run -/

/-- The steps that read the fixtures. -/
def loading (h : Host (StateM σ)) (v : Verification) :
    ExceptT Failure (StateM σ) (List FixtureSet) := do
  ExceptT.lift (h.notify ("Verifying against fixtures in " ++ v.fixture))
  FixtureSet.loadAll h v.fixture

/-- The timestamp of a run: the given one, or the time of day. -/
def dating (h : Host (StateM σ)) (v : Verification) : ExceptT Failure (StateM σ) String :=
  match v.timestamp with
  | some t => pure t
  | none => ExceptT.lift h.now

/-- The steps behind the reading. -/
def checking (h : Host (StateM σ)) (v : Verification) (sets : List FixtureSet) :
    ExceptT Failure (StateM σ) Unit := do
  let timestamp ← dating h v
  let log : LogWriter := { runId := runName timestamp }
  saveLog h v log
  let p ← ExceptT.lift (runAll h v sets log)
  ExceptT.lift (h.notify (countsLine (reportOn v timestamp p.verdicts).summary))
  finish h v (reportOn v timestamp p.verdicts) p.log

theorem run_eq (h : Host (StateM σ)) (v : Verification) :
    run h v = loading h v >>= checking h v := by
  unfold run loading checking dating
  cases v.timestamp <;> rfl

theorem succeeds_dating (hr : h.Reliable holds v.paths) :
    Succeeds holds files (dating h v) fun timestamp files' =>
      files' = files ∧ ∀ given ∈ v.timestamp, timestamp = given := by
  unfold dating
  cases v.timestamp with
  | none => exact .lift ((hr.now files).mono fun _ _ hsame => ⟨hsame, by simp⟩)
  | some t => exact .pure ⟨rfl, fun _ hgiven => Option.some.inj hgiven⟩

theorem succeeds_saveLog (hr : h.Reliable holds v.paths) (w : LogWriter) :
    Succeeds holds files (saveLog h v w) fun _ _ => True := by
  unfold saveLog
  cases hlog : v.log with
  | none => exact .pure trivial
  | some path =>
    have hmem : path ∈ v.paths := by simp [paths, logPaths, hlog]
    exact (succeeds_save hr hmem _).mono fun _ _ ⟨u, hu, _⟩ => ⟨u, hu, trivial⟩

theorem runs_checking (hr : h.Reliable holds v.paths) (hnodup : v.paths.Nodup)
    (hpasses : v.passes < 2 ^ 64) {sets : List FixtureSet} (hsets : sets.length < 2 ^ 64) :
    Runs holds files (checking h v sets).run fun result files' =>
      ∃ timestamp, (∀ given ∈ v.timestamp, timestamp = given) ∧
        result = outcome (v.reportOn timestamp (v.allVerdicts sets)).summary ∧
        v.ReportStored (v.reportOn timestamp (v.allVerdicts sets)) files' ∧
        v.LogStored (2 + v.thresholds.length * entriesOf sets) files' := by
  unfold checking
  refine (succeeds_dating hr).andThen ?_
  rintro timestamp _ ⟨rfl, hgiven⟩
  refine (succeeds_saveLog hr _).andThen ?_
  intro _ _ _
  refine (Succeeds.lift (runs_runAll hr hpasses hsets (LogWriter.keeps_new _))).andThen ?_
  rintro p _ ⟨rfl, hverdicts, hkeeps⟩
  rw [hverdicts]
  refine (Succeeds.lift (hr.notify _ _)).andThen ?_
  rintro _ _ rfl
  refine (runs_finish hr hnodup _ hkeeps).mono ?_
  rintro result _ ⟨hresult, hreport, hlog⟩
  rw [Nat.add_right_comm] at hlog
  exact ⟨timestamp, hgiven, hresult, hreport, hlog⟩

/-- The outcome of a verification is that of all its cases. With some sets of fixtures read and a
host that does not fail, it succeeds when a formatter, whatever it did before, renders every case as
expected, and otherwise counts the failing cases once for each threshold. The log is in order and
complete, and the report shows all verdicts in order. -/
theorem run_exact (hr : h.Reliable holds v.paths) (hnodup : v.paths.Nodup)
    (hpasses : v.passes < 2 ^ 64) {s s' : σ} {sets : List FixtureSet}
    (hload : (loading h v).run.run s = (.ok sets, s')) (hfiles : holds s' files)
    (hsets : sets.length < 2 ^ 64) (t : Threshold) (calls : List Formatter.Call) :
    let f := (Formatter.fresh .standard t).run calls
    let k := if v.threshold = none then 3 else 1
    ∃ s'' files', (run h v).run.run s =
        (if ∀ s ∈ sets, ∀ c ∈ s.cases, (f.sprintf c.format c.args).1 = c.expected then .ok ()
          else .error (.failedCases (k * f.failing sets) (k * (sets.flatMap (·.cases)).length)),
          s'') ∧
      holds s'' files' ∧
      v.LogStored (2 + k * (sets.map fun s => s.cases.length + 1).sum) files' ∧
      ∃ timestamp, (∀ given ∈ v.timestamp, timestamp = given) ∧
        v.ReportStored (v.reportOn timestamp (v.allVerdicts sets)) files' ∧
        Verdict.Arranged (v.allVerdicts sets)
          (v.reportOn timestamp (v.allVerdicts sets)).summary.results := by
  intro f k
  have hf : f.Sound .standard :=
    (Formatter.sound_fresh .standard t).run Compiler.faithful_standard calls
  have hk : v.thresholds.length = k := v.length_thresholds
  obtain ⟨result, s'', files', hrun, hholds, timestamp, hgiven, hresult, hreport, hlog⟩ :=
    runs_checking hr hnodup hpasses hsets s' hfiles
  have hall := v.allPassed_reportOn timestamp sets hf
  rw [Formatter.failing_eq_zero_iff] at hall
  rw [hk] at hlog
  refine ⟨s'', files', ?_, hholds, hlog, timestamp, hgiven, hreport, Verdict.arranged_mergeSort _⟩
  rw [run_eq, run_bind_ok _ hload, hrun, hresult, outcome, if_congr hall rfl rfl,
    v.failed_reportOn timestamp sets hf, v.total_reportOn, hk]

end

/-- A passing case, and one whose directive has no argument. -/
def halfRight : FixtureSet where
  version := "1"
  family := "strings"
  cases := [
    { name := "shown", format := "%s!", args := ["x"], expected := "x!" },
    { name := "missing", format := "%s!", expected := "!" }]

/-- A verification of one file under all thresholds, with a report and a log. -/
def fullyKept : Verification :=
  { fixture := "f.json", report := some "r.md", log := some "l.jsonl", passes := 2 }

/-- Only the fixture file is there. -/
def fixtureOnly (s : FixtureSet) : Memory where
  files := FileTree.addFile {} ["f.json"] s.text.toUTF8

theorem loading_fixtureOnly (s : FixtureSet) :
    (loading (Host.memory "" 0) fullyKept).run.run (fixtureOnly s) =
      (.ok [s], { fixtureOnly s with notices := ["Verifying against fixtures in f.json"] }) :=
  (run_bind_ok _ (run_lift_ok rfl)).trans (FixtureSet.loadAll_memory rfl)

theorem run_exact_half : ∃ s files,
    (run (Host.memory "" 0) fullyKept).run.run (fixtureOnly halfRight) =
      (.error (.failedCases 3 6), s) ∧
    s.Holds fullyKept.paths files ∧ fullyKept.LogStored 11 files := by
  have hpaths : fullyKept.paths = ["r.md", "r.json", "l.jsonl", "l.index.json"] := by decide
  have hfree : ∀ p ∈ fullyKept.paths, (fixtureOnly halfRight).files.Finds p [p] none := by
    rw [hpaths]
    simp only [List.forall_mem_cons]
    exact ⟨rfl, rfl, rfl, rfl, by simp⟩
  have hfailing : ((Formatter.fresh .standard .always).run []).failing [halfRight] = 1 := by
    decide +kernel
  have hwrong : ¬ ∀ s ∈ [halfRight], ∀ c ∈ s.cases,
      (((Formatter.fresh .standard .always).run []).sprintf c.format c.args).1 = c.expected := by
    rw [← Formatter.failing_eq_zero_iff, hfailing]
    decide
  obtain ⟨s, files, hrun, hholds, hlog, -⟩ := run_exact (Host.reliable_memory "" 0 fullyKept.paths)
    (by decide) (by decide) (loading_fixtureOnly halfRight)
    ⟨fun p => [p], hfree, fun p _ q _ h => List.singleton_inj.mp h⟩ (by decide) .always []
  rw [if_neg hwrong, hfailing] at hrun
  exact ⟨s, files, hrun, hholds, hlog⟩

end Verification

end PercentFormat
