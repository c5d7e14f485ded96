import Mathlib.Algebra.Group.Nat.Defs
import PercentFormat.Output.Lending
import PercentFormat.Proofs.Output.Requests
import PercentFormat.Template.Compile

/-!
# Accounts of a pool

Every buffer that a pool has handed out and not handed out again is on loan, idle, or was given
back when the pool was full, whatever was done with the buffers and wherever a sink failed.
-/

namespace PercentFormat

open Pool (Request)

/-! ## Requests of a rendering -/

/-- A buffer is acquired, filled and released, also when the sink that it goes to fails. -/
def Pool.roundTrip (p : Pool) (es : List Edit) : List Request :=
  [.acquire, .release (p.acquire.1.applyAll es)]

theorem Pool.Sound.roomy_roundTrip {p : Pool} (h : p.Sound) (es : List Edit) :
    ∀ r ∈ p.roundTrip es, r.Roomy := by
  intro r hr
  rcases List.mem_pair.mp hr with rfl | rfl
  · trivial
  · exact h.roomy_acquire.applyAll es

namespace Lending

def returned (l : Lending) (name : String) : List Request :=
  ((l.loan? name).map Request.release).toList

/-- What a step asks of the pool. A loan under a name that is lent again ends after the new one
has begun. -/
def requests (l : Lending) : Step → List Request
  | .acquire name => .acquire :: l.returned name
  | .release name => l.returned name
  | .takeText name => l.returned name
  | .use .. => []
  | .renderToString t args =>
    if args.isEmpty && (t.isEmpty || t.asLiteral.isSome) then []
    else l.pool.roundTrip (t.edits args)
  | .renderToSink t args _ => l.pool.roundTrip (t.edits args)

def allRequests (l : Lending) : List Step → List Request
  | [] => []
  | s :: steps => l.requests s ++ (l.step s).2.allRequests steps

theorem pool_giveBack (l : Lending) (name : String) :
    (l.giveBack name).pool = l.pool.serveAll (l.returned name) := by
  unfold giveBack returned
  cases l.loan? name <;> rfl

theorem pool_renderToString (p : Pool) (t : Template) (args : List String) :
    (p.renderToString t args).2 =
      p.serveAll (if args.isEmpty && (t.isEmpty || t.asLiteral.isSome) then []
        else p.roundTrip (t.edits args)) := by
  unfold Pool.renderToString
  cases args.isEmpty with
  | false => rfl
  | true =>
    cases t.isEmpty with
    | true => rfl
    | false => cases t.asLiteral <;> rfl

theorem pool_step (l : Lending) (s : Step) :
    (l.step s).2.pool = l.pool.serveAll (l.requests s) := by
  cases s with
  | acquire name => exact pool_giveBack { l with pool := l.pool.acquire.2 } name
  | release name => exact l.pool_giveBack name
  | takeText name => exact l.pool_giveBack name
  | use name steps =>
    simp only [step]
    split <;> rfl
  | renderToString t args => exact pool_renderToString l.pool t args
  | renderToSink t args sink => rfl

theorem pool_run (l : Lending) (steps : List Step) :
    (l.run steps).pool = l.pool.serveAll (l.allRequests steps) := by
  induction steps generalizing l with
  | nil => rfl
  | cons s steps ih =>
    rw [allRequests, Pool.serveAll, List.foldl_append]
    have hrest := ih (l.step s).2
    rw [pool_step, Pool.serveAll, Pool.serveAll] at hrest
    exact hrest

/-! ## Loans -/

/-- Each loan has a name of its own, and its buffer at least the room of a fresh one. -/
structure Sound (l : Lending) : Prop where
  pool : l.pool.Sound
  names : (l.loans.map Prod.fst).Nodup
  roomy : ∀ loan ∈ l.loans, loan.2.Roomy

theorem sound_new : Sound {} :=
  ⟨Pool.sound_new, List.nodup_nil, by simp⟩

variable {l : Lending}

theorem mem_of_loan? {name : String} {b : Buffer} (h : l.loan? name = some b) :
    (name, b) ∈ l.loans := by
  obtain ⟨before, after, hloans, -⟩ := List.lookup_eq_some_iff.mp h
  rw [hloans]
  simp

theorem Sound.roomy_returned (h : l.Sound) (name : String) : ∀ r ∈ l.returned name, r.Roomy := by
  unfold returned
  cases hloan : l.loan? name with
  | none => simp
  | some b =>
    intro r hr
    obtain rfl : r = .release b := by simpa using hr
    exact h.roomy _ (mem_of_loan? hloan)

theorem Sound.roomy_requests (h : l.Sound) (s : Step) : ∀ r ∈ l.requests s, r.Roomy := by
  cases s with
  | acquire name => exact List.forall_mem_cons.mpr ⟨trivial, h.roomy_returned name⟩
  | release name => exact h.roomy_returned name
  | takeText name => exact h.roomy_returned name
  | use name steps => simp [requests]
  | renderToString t args =>
    simp only [requests]
    split
    · simp
    · exact h.pool.roomy_roundTrip (t.edits args)
  | renderToSink t args sink => exact h.pool.roomy_roundTrip (t.edits args)

theorem filter_eq_self_of_ne {loans : List (String × Buffer)} {name : String}
    (h : ∀ loan ∈ loans, name ≠ loan.1) : loans.filter (·.1 ≠ name) = loans :=
  List.filter_eq_self.mpr fun loan hmem => decide_eq_true (h loan hmem).symm

theorem loans_giveBack (l : Lending) (name : String) :
    (l.giveBack name).loans = l.loans.filter (·.1 ≠ name) := by
  unfold giveBack
  cases hloan : l.loan? name with
  | some b => rfl
  | none =>
    have hothers := List.lookup_eq_none_iff.mp hloan
    exact (filter_eq_self_of_ne fun loan hmem => bne_iff_ne.mp (hothers loan hmem)).symm

theorem Sound.acquired (h : l.Sound) : Sound { l with pool := l.pool.acquire.2 } :=
  ⟨h.pool.serve (r := .acquire) trivial, h.names, h.roomy⟩

theorem Sound.giveBack (h : l.Sound) (name : String) : (l.giveBack name).Sound := by
  refine ⟨?_, ?_, ?_⟩
  · rw [pool_giveBack]
    exact h.pool.serveAll (h.roomy_returned name)
  · rw [loans_giveBack]
    exact h.names.sublist (List.filter_sublist.map Prod.fst)
  · intro loan hloan
    rw [loans_giveBack] at hloan
    exact h.roomy loan (List.mem_of_mem_filter hloan)

theorem Sound.lend (h : l.Sound) {name : String} {b : Buffer}
    (hname : name ∉ l.loans.map Prod.fst) (hb : b.Roomy) :
    Sound { l with loans := (name, b) :: l.loans } :=
  ⟨h.pool, List.nodup_cons.mpr ⟨hname, h.names⟩, List.forall_mem_cons.mpr ⟨hb, h.roomy⟩⟩

theorem map_fst_replace (l : Lending) (name : String) (b : Buffer) :
    (l.replace name b).loans.map Prod.fst = l.loans.map Prod.fst := by
  rw [replace, List.map_map]
  refine List.map_congr_left fun loan _ => ?_
  by_cases hname : loan.1 = name <;> simp [hname]

theorem Sound.replace (h : l.Sound) {name : String} {b : Buffer} (hb : b.Roomy) :
    (l.replace name b).Sound := by
  refine ⟨h.pool, map_fst_replace l name b ▸ h.names, ?_⟩
  intro loan hloan
  obtain ⟨old, hold, rfl⟩ := List.mem_map.mp hloan
  split
  · exact hb
  · exact h.roomy old hold

theorem Sound.step (h : l.Sound) (s : Step) : (l.step s).2.Sound := by
  have hpool := h.pool.serveAll (h.roomy_requests s)
  rw [← pool_step] at hpool
  cases s with
  | acquire name =>
    refine (h.acquired.giveBack name).lend ?_ h.pool.roomy_acquire
    rw [loans_giveBack]
    simp
  | release name => exact h.giveBack name
  | takeText name => exact h.giveBack name
  | use name steps =>
    simp only [Lending.step]
    cases hloan : l.loan? name with
    | none => exact h
    | some b => exact h.replace ((h.roomy _ (mem_of_loan? hloan)).run steps)
  | renderToString t args => exact ⟨hpool, h.names, h.roomy⟩
  | renderToSink t args sink => exact ⟨hpool, h.names, h.roomy⟩

theorem Sound.run (h : l.Sound) (steps : List Step) : (l.run steps).Sound := by
  induction steps generalizing l with
  | nil => exact h
  | cons s steps ih => exact ih (h.step s)

theorem Sound.roomy_allRequests (h : l.Sound) (steps : List Step) :
    ∀ r ∈ l.allRequests steps, r.Roomy := by
  induction steps generalizing l with
  | nil => simp [allRequests]
  | cons s steps ih =>
    intro r hr
    rcases List.mem_append.mp hr with hr | hr
    · exact h.roomy_requests s r hr
    · exact ih (h.step s) r hr

/-! ## Balance -/

theorem Sound.length_loans_giveBack (h : l.Sound) (name : String) :
    (l.giveBack name).loans.length + (l.returned name).length = l.loans.length := by
  cases hloan : l.loan? name with
  | none =>
    have hkeep : l.giveBack name = l := by simp [Lending.giveBack, hloan]
    simp [hkeep, returned, hloan]
  | some b =>
    obtain ⟨before, after, hloans, hbefore⟩ := List.lookup_eq_some_iff.mp hloan
    have hnames := h.names
    rw [hloans, List.map_append, List.map_cons, List.nodup_append, List.nodup_cons] at hnames
    have hkept : before.filter (·.1 ≠ name) = before :=
      filter_eq_self_of_ne fun loan hmem => bne_iff_ne.mp (hbefore loan hmem)
    -- The lookup finds the first loan under the name, and no other one has it.
    have hkept' : after.filter (·.1 ≠ name) = after := by
      refine filter_eq_self_of_ne fun loan hmem heq => hnames.2.1.1 ?_
      exact List.mem_map.mpr ⟨loan, hmem, heq.symm⟩
    rw [loans_giveBack, hloans, List.filter_append, List.filter_cons_of_neg (by simp), hkept,
      hkept', returned, hloan]
    simp [Nat.add_assoc]

theorem countP_log_returned (p : Pool) (l : Lending) (name : String) :
    (p.log (l.returned name)).countP Pool.isAcquire = 0 ∧
      (p.log (l.returned name)).countP Pool.isRelease = (l.returned name).length := by
  unfold returned
  cases l.loan? name <;> exact ⟨rfl, rfl⟩

theorem Sound.length_giveBack (h : l.Sound) (name : String) (p : Pool) :
    (l.giveBack name).loans.length + (p.log (l.returned name)).countP Pool.isRelease =
      l.loans.length + (p.log (l.returned name)).countP Pool.isAcquire := by
  obtain ⟨hnone, hreturned⟩ := countP_log_returned p l name
  rw [hnone, hreturned]
  exact h.length_loans_giveBack name

/-- Each request to hand out a buffer begins a loan, each one to take it back ends one. -/
theorem Sound.length_step (h : l.Sound) (s : Step) :
    (l.step s).2.loans.length + (l.pool.log (l.requests s)).countP Pool.isRelease =
      l.loans.length + (l.pool.log (l.requests s)).countP Pool.isAcquire := by
  cases s with
  | acquire name =>
    have hlength := h.acquired.length_giveBack name l.pool.acquire.2
    rw [requests, Pool.log, List.countP_cons_of_neg (by simp [Pool.isRelease]),
      List.countP_cons_of_pos rfl, ← Nat.add_assoc]
    exact (Nat.add_right_comm ..).trans (congrArg (· + 1) hlength)
  | release name => exact h.length_giveBack name l.pool
  | takeText name => exact h.length_giveBack name l.pool
  | use name steps =>
    simp only [Lending.step]
    cases hloan : l.loan? name with
    | none => rfl
    | some b => exact List.length_map _
  | renderToString t args =>
    rw [requests]
    split <;> rfl
  | renderToSink t args sink => rfl

theorem Sound.length_run (h : l.Sound) (steps : List Step) :
    (l.run steps).loans.length + (l.pool.log (l.allRequests steps)).countP Pool.isRelease =
      l.loans.length + (l.pool.log (l.allRequests steps)).countP Pool.isAcquire := by
  induction steps generalizing l with
  | nil => rfl
  | cons s steps ih =>
    have hstep := h.length_step s
    have hrest := ih (h.step s)
    rw [allRequests, Pool.log_append, ← pool_step, List.countP_append, List.countP_append]
    rw [show l.run (s :: steps) = (l.step s).2.run steps from rfl]
    omega

/-- What is handed out and not handed out again is on loan, idle or was refused. -/
theorem Sound.balance (h : l.Sound) (steps : List Step) :
    l.loans.length + l.pool.idle.length +
        (l.pool.log (l.allRequests steps)).countP Pool.isAcquire =
      (l.pool.log (l.allRequests steps)).countP Pool.isReuse +
        ((l.run steps).loans.length + (l.run steps).pool.idle.length +
          (l.pool.log (l.allRequests steps)).countP Pool.isRefused) := by
  have hloans := h.length_run steps
  have hidle := l.pool.length_idle_serveAll (l.allRequests steps)
  rw [← pool_run] at hidle
  rw [Pool.countP_isRelease] at hloans
  omega

theorem balance_new (steps : List Step) :
    (Pool.log {} (allRequests {} steps)).countP Pool.isAcquire =
      (Pool.log {} (allRequests {} steps)).countP Pool.isReuse +
        ((run {} steps).loans.length + (run {} steps).pool.idle.length +
          (Pool.log {} (allRequests {} steps)).countP Pool.isRefused) :=
  (Nat.zero_add _).symm.trans (sound_new.balance steps)

theorem oversized_le_acquired (steps : List Step) :
    (Pool.log {} (allRequests {} steps)).countP Pool.isOversized ≤
      (Pool.log {} (allRequests {} steps)).countP Pool.isAcquire := by
  have hlarge := Pool.countP_isOversized_le (Pool.log {} (allRequests {} steps))
  have hreturned : (run {} steps).loans.length +
      (Pool.log {} (allRequests {} steps)).countP Pool.isRelease =
        (Pool.log {} (allRequests {} steps)).countP Pool.isAcquire :=
    (sound_new.length_run steps).trans (Nat.zero_add _)
  omega

/-! ## Counters -/

theorem counts_run (steps : List Step) :
    (run {} steps).pool.counts.acquired =
        UInt64.ofNat ((Pool.log {} (allRequests {} steps)).countP Pool.isAcquire) ∧
      (run {} steps).pool.counts.reused =
        UInt64.ofNat ((Pool.log {} (allRequests {} steps)).countP Pool.isReuse) ∧
      (run {} steps).pool.counts.oversized =
        UInt64.ofNat ((Pool.log {} (allRequests {} steps)).countP Pool.isOversized) := by
  rw [pool_run]
  refine ⟨?_, ?_, ?_⟩
  · exact (Pool.serveAll_counts (·.counts.acquired) Pool.acquired_serve ..).trans
      (UInt64.zero_add _)
  · exact (Pool.serveAll_counts (·.counts.reused) Pool.reused_serve ..).trans
      (UInt64.zero_add _)
  · exact (Pool.serveAll_counts (·.counts.oversized) Pool.oversized_serve ..).trans
      (UInt64.zero_add _)

/-- Reuses and oversized buffers are no more than acquisitions, so all counters are exact while
that one is. -/
theorem shown_run {steps : List Step}
    (h : (Pool.log {} (allRequests {} steps)).countP Pool.isAcquire < 2 ^ 64) :
    (run {} steps).pool.acquired =
        (Pool.log {} (allRequests {} steps)).countP Pool.isAcquire ∧
      (run {} steps).pool.reused = (Pool.log {} (allRequests {} steps)).countP Pool.isReuse ∧
      (run {} steps).pool.oversized =
        (Pool.log {} (allRequests {} steps)).countP Pool.isOversized := by
  obtain ⟨hacquired, hreused, hoversized⟩ := counts_run steps
  have hle : (Pool.log {} (allRequests {} steps)).countP Pool.isReuse ≤
      (Pool.log {} (allRequests {} steps)).countP Pool.isAcquire := by
    rw [balance_new]
    exact Nat.le_add_right ..
  have hle' := oversized_le_acquired steps
  refine ⟨?_, ?_, ?_⟩
  · rw [Pool.acquired, hacquired, UInt64.toNat_ofNat_of_lt' h]
  · rw [Pool.reused, hreused, UInt64.toNat_ofNat_of_lt' (Nat.lt_of_le_of_lt hle h)]
  · rw [Pool.oversized, hoversized, UInt64.toNat_ofNat_of_lt' (Nat.lt_of_le_of_lt hle' h)]

/-- In a run on a new pool every buffer handed out is empty, the idle buffers are empty, not too
large and not too many, and no buffer is lost: what was acquired afresh is on loan, idle, or was
refused. The counters say so modulo 2 ^ 64, and exactly while no more buffers were acquired than
they can count. A buffer that is kept is the first to be handed out again. -/
theorem accounts_run (steps : List Step) :
    let l := run {} steps
    let log := Pool.log {} (allRequests {} steps)
    let afresh := l.loans.length + l.pool.idle.length + log.countP Pool.isRefused
    l.pool = Pool.serveAll {} (allRequests {} steps) ∧
      (∀ p, (p, .acquire) ∈ log → p.acquire.1.bytes = ByteArray.empty) ∧
      (∀ name, ∃ b, (l.step (.acquire name)).1 = .loan (some b) ∧ b.bytes = ByteArray.empty) ∧
      (∀ b ∈ l.pool.idle, b.bytes = ByteArray.empty ∧
        Buffer.defaultCapacity ≤ b.capacity ∧ b.capacity ≤ Pool.maxRetained) ∧
      l.pool.idle.length ≤ Pool.maxIdle ∧
      log.countP Pool.isAcquire = log.countP Pool.isReuse + afresh ∧
      l.pool.counts.acquired = UInt64.ofNat (log.countP Pool.isAcquire) ∧
      l.pool.counts.reused = UInt64.ofNat (log.countP Pool.isReuse) ∧
      l.pool.counts.oversized = UInt64.ofNat (log.countP Pool.isOversized) ∧
      l.pool.counts.acquired - l.pool.counts.reused = UInt64.ofNat afresh ∧
      (log.countP Pool.isAcquire < 2 ^ 64 →
        l.pool.acquired = log.countP Pool.isAcquire ∧
        l.pool.reused = log.countP Pool.isReuse ∧
        l.pool.oversized = log.countP Pool.isOversized ∧
        l.pool.counts.reused ≤ l.pool.counts.acquired ∧
        l.pool.acquired - l.pool.reused = afresh) ∧
      (∀ p b, (p, .release b) ∈ log → p.Released b) ∧
      ∀ before p b mid q after,
        log = before ++ (p, .release b) :: (mid ++ (q, .acquire) :: after) →
        p.idle.length < Pool.maxIdle → b.capacity ≤ Pool.maxRetained →
        (∀ e ∈ mid, p.idle.length < e.1.idle.length) → q.idle.length = p.idle.length + 1 →
        q.acquire.1 = ⟨ByteArray.empty, b.capacity⟩ ∧ q.acquire.2.idle = p.idle := by
  intro l log afresh
  have hsound : l.Sound := sound_new.run steps
  have hpool : l.pool = Pool.serveAll {} (allRequests {} steps) := pool_run {} steps
  have hroomy := sound_new.roomy_allRequests steps
  obtain ⟨hacquired, hreused, hoversized⟩ := counts_run steps
  have hbalance : log.countP Pool.isAcquire = log.countP Pool.isReuse + afresh :=
    balance_new steps
  refine ⟨hpool, ?_, ?_, ?_, hsound.pool.bounded, hbalance, hacquired, hreused, hoversized, ?_, ?_,
    fun p b _ => p.released b, ?_⟩
  · intro p hp
    exact (Pool.sound_new.log hroomy _ hp).clean.acquire.1
  · intro name
    exact ⟨_, rfl, hsound.pool.clean.acquire.1⟩
  · intro b hb
    exact ⟨hsound.pool.clean b hb, hsound.pool.sized b hb⟩
  · rw [hacquired, hreused, hbalance, UInt64.ofNat_add, UInt64.add_comm, UInt64.add_sub_cancel]
  · intro hfits
    obtain ⟨hacquired', hreused', hoversized'⟩ := shown_run hfits
    refine ⟨hacquired', hreused', hoversized', ?_, ?_⟩
    · have hle : l.pool.reused ≤ l.pool.acquired := by
        rw [hacquired', hreused', hbalance]
        exact Nat.le_add_right ..
      exact UInt64.le_iff_toNat_le.mpr hle
    · rw [hacquired', hreused', hbalance, Nat.add_sub_cancel_left]
  · intro before p b mid q after hlog hroom hsmall hmid hq
    exact Pool.acquire_of_release hlog hroom hsmall hmid hq

/-- The room of the first buffer is too large to keep, and the rendering reuses what is left of
it, although its sink fails. -/
theorem accounts_run_failing :
    let l := run {} [.acquire "a", .acquire "b", .use "a" [.edit (.reserve 20000)], .release "a",
      .renderToSink (Template.compile "%s") ["x"] (Sink.failing .writeZero)]
    l.pool.counts = ⟨3, 1, 1⟩ ∧ l.loans.length = 1 ∧ l.pool.idle.length = 1 ∧
      l.pool.counts.reused ≤ l.pool.counts.acquired ∧ l.pool.acquired - l.pool.reused = 2 := by
  intro l
  have hcounts : l.pool.counts = ⟨3, 1, 1⟩ ∧ l.loans.length = 1 ∧ l.pool.idle.length = 1 := by
    decide +kernel
  obtain ⟨-, -, -, -, -, -, -, -, -, -, hfits, -⟩ := accounts_run [.acquire "a", .acquire "b",
    .use "a" [.edit (.reserve 20000)], .release "a",
    .renderToSink (Template.compile "%s") ["x"] (Sink.failing .writeZero)]
  obtain ⟨-, -, -, hle, hafresh⟩ := hfits (by decide +kernel)
  refine ⟨hcounts.1, hcounts.2.1, hcounts.2.2, hle, hafresh.trans ?_⟩
  decide +kernel

end Lending

end PercentFormat
