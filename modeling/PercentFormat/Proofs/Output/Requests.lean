import Mathlib.Data.List.Chain
import PercentFormat.Proofs.Output.Capacity
import PercentFormat.Proofs.Output.Pooling

/-!
# Requests to a pool

All that is asked of a pool is to hand out a buffer and to take one back. Its counters say how
many requests of a kind were made, modulo 2 ^ 64, and its idle buffers are a stack.
-/

namespace PercentFormat

namespace Pool

inductive Request
  | acquire
  | release (b : Buffer)

def serve (p : Pool) : Request → Pool
  | .acquire => p.acquire.2
  | .release b => p.release b

def serveAll (p : Pool) (rs : List Request) : Pool := rs.foldl serve p

/-- Requests one after the other, each with the pool that it meets. -/
def log (p : Pool) : List Request → List (Pool × Request)
  | [] => []
  | r :: rs => (p, r) :: (p.serve r).log rs

def isAcquire : Pool × Request → Bool
  | (_, .acquire) => true
  | (_, .release _) => false

def isReuse : Pool × Request → Bool
  | (p, .acquire) => !p.idle.isEmpty
  | (_, .release _) => false

def isOversized : Pool × Request → Bool
  | (_, .acquire) => false
  | (_, .release b) => maxRetained < b.capacity

def isKept : Pool × Request → Bool
  | (_, .acquire) => false
  | (p, .release _) => p.idle.length < maxIdle

def isRefused : Pool × Request → Bool
  | (_, .acquire) => false
  | (p, .release _) => maxIdle ≤ p.idle.length

def isRelease : Pool × Request → Bool
  | (_, .acquire) => false
  | (_, .release _) => true

/-! ## One request -/

theorem acquire_of_nil {p : Pool} (h : p.idle = []) :
    p.acquire = (.empty, { p with counts.acquired := p.counts.acquired + 1 }) := by
  unfold acquire
  rw [h]

theorem acquire_of_cons {p : Pool} {b : Buffer} {rest : List Buffer} (h : p.idle = b :: rest) :
    p.acquire =
      (b, { p with
        idle := rest
        counts.acquired := p.counts.acquired + 1
        counts.reused := p.counts.reused + 1 }) := by
  unfold acquire
  rw [h]

theorem idle_acquire (p : Pool) : p.acquire.2.idle = p.idle.tail := by
  cases h : p.idle with
  | nil => rw [acquire_of_nil h]; exact h
  | cons b rest => rw [acquire_of_cons h]; rfl

theorem idle_release (p : Pool) (b : Buffer) :
    (p.release b).idle =
      if p.idle.length < maxIdle then
        (if maxRetained < b.capacity then .empty else b.clear) :: p.idle
      else p.idle := rfl

theorem idle_release_kept {p : Pool} {b : Buffer} (hroom : p.idle.length < maxIdle)
    (hsmall : b.capacity ≤ maxRetained) : (p.release b).idle = b.clear :: p.idle := by
  rw [idle_release, if_pos hroom, if_neg (Nat.not_lt.mpr hsmall)]

structure Released (p : Pool) (b : Buffer) : Prop where
  counted : (p.release b).counts.oversized = p.counts.oversized + 1 ↔ maxRetained < b.capacity
  uncounted : (p.release b).counts.oversized = p.counts.oversized ↔ b.capacity ≤ maxRetained
  refused : maxIdle ≤ p.idle.length → (p.release b).idle = p.idle
  discarded : p.idle.length < maxIdle → maxRetained < b.capacity →
    (p.release b).acquire.1 = .empty ∧ (p.release b).acquire.2.idle = p.idle
  kept : p.idle.length < maxIdle → b.capacity ≤ maxRetained →
    (p.release b).acquire.1 = ⟨ByteArray.empty, b.capacity⟩ ∧ (p.release b).acquire.2.idle = p.idle

theorem released (p : Pool) (b : Buffer) : p.Released b := by
  have hoversized : (p.release b).counts.oversized =
      if maxRetained < b.capacity then p.counts.oversized + 1 else p.counts.oversized := rfl
  refine ⟨?_, ?_, ?_, ?_, ?_⟩
  · rw [hoversized]
    by_cases hlarge : maxRetained < b.capacity <;> simp [hlarge]
  · rw [hoversized]
    by_cases hlarge : maxRetained < b.capacity <;> simp [hlarge, Nat.le_of_not_lt]
  · intro hfull
    rw [idle_release, if_neg (Nat.not_lt.mpr hfull)]
  · intro hroom hlarge
    have htop : (p.release b).idle = .empty :: p.idle := by
      rw [idle_release, if_pos hroom, if_pos hlarge]
    rw [acquire_of_cons htop]
    exact ⟨rfl, rfl⟩
  · intro hroom hsmall
    rw [acquire_of_cons (idle_release_kept hroom hsmall)]
    exact ⟨rfl, rfl⟩

theorem acquired_serve (p : Pool) (r : Request) :
    (p.serve r).counts.acquired =
      if isAcquire (p, r) then p.counts.acquired + 1 else p.counts.acquired := by
  cases r with
  | acquire =>
    cases h : p.idle with
    | nil => rw [serve, acquire_of_nil h]; rfl
    | cons b rest => rw [serve, acquire_of_cons h]; rfl
  | release b => rfl

theorem reused_serve (p : Pool) (r : Request) :
    (p.serve r).counts.reused =
      if isReuse (p, r) then p.counts.reused + 1 else p.counts.reused := by
  cases r with
  | acquire =>
    cases h : p.idle with
    | nil => rw [serve, acquire_of_nil h, isReuse, h]; rfl
    | cons b rest => rw [serve, acquire_of_cons h, isReuse, h]; rfl
  | release b => rfl

theorem oversized_serve (p : Pool) (r : Request) :
    (p.serve r).counts.oversized =
      if isOversized (p, r) then p.counts.oversized + 1 else p.counts.oversized := by
  cases r with
  | acquire =>
    cases h : p.idle with
    | nil => rw [serve, acquire_of_nil h]; rfl
    | cons b rest => rw [serve, acquire_of_cons h]; rfl
  | release b => simp only [serve, release, isOversized, decide_eq_true_eq]

/-- A buffer that is handed out again is no longer idle, and one that is kept is. -/
theorem length_idle_serve (p : Pool) (r : Request) :
    (p.serve r).idle.length + (if isReuse (p, r) then 1 else 0) =
      p.idle.length + if isKept (p, r) then 1 else 0 := by
  cases r with
  | acquire =>
    rw [serve, idle_acquire]
    cases h : p.idle with
    | nil => simp [isReuse, isKept, h]
    | cons b rest => simp [isReuse, isKept, h]
  | release b =>
    simp only [serve, idle_release, isReuse, isKept, decide_eq_true_eq]
    split <;> rfl

theorem length_idle_serve_le {p : Pool} (h : p.idle.length ≤ maxIdle) (r : Request) :
    (p.serve r).idle.length ≤ maxIdle := by
  cases r with
  | acquire =>
    rw [serve, idle_acquire, List.length_tail]
    exact Nat.le_trans (Nat.sub_le ..) h
  | release b =>
    rw [serve, idle_release]
    split
    · assumption
    · exact h

/-! ## Any requests -/

theorem serveAll_cons (p : Pool) (r : Request) (rs : List Request) :
    p.serveAll (r :: rs) = (p.serve r).serveAll rs := rfl

/-- A counter that each request of a kind puts up by one counts these requests, modulo 2 ^ 64. -/
theorem serveAll_counts (counter : Pool → UInt64) {kind : Pool × Request → Bool}
    (h : ∀ p r, counter (p.serve r) = if kind (p, r) then counter p + 1 else counter p)
    (p : Pool) (rs : List Request) :
    counter (p.serveAll rs) = counter p + UInt64.ofNat ((p.log rs).countP kind) := by
  induction rs generalizing p with
  | nil => exact (UInt64.add_zero _).symm
  | cons r rs ih =>
    rw [serveAll_cons, ih, h, log, List.countP_cons, UInt64.ofNat_add]
    split
    · exact (UInt64.add_assoc ..).trans (congrArg _ (UInt64.add_comm ..))
    · exact congrArg _ (UInt64.add_zero _).symm

theorem length_idle_serveAll (p : Pool) (rs : List Request) :
    (p.serveAll rs).idle.length + (p.log rs).countP isReuse =
      p.idle.length + (p.log rs).countP isKept := by
  induction rs generalizing p with
  | nil => rfl
  | cons r rs ih =>
    have hr := p.length_idle_serve r
    have hrs := ih (p.serve r)
    rw [serveAll_cons, log, List.countP_cons, List.countP_cons]
    omega

theorem log_append (p : Pool) (rs more : List Request) :
    p.log (rs ++ more) = p.log rs ++ (p.serveAll rs).log more := by
  induction rs generalizing p with
  | nil => rfl
  | cons r rs ih => exact congrArg _ (ih (p.serve r))

theorem countP_isRelease (log : List (Pool × Request)) :
    log.countP isRelease = log.countP isKept + log.countP isRefused := by
  induction log with
  | nil => rfl
  | cons e log ih =>
    obtain ⟨p, r⟩ := e
    rw [List.countP_cons, List.countP_cons, List.countP_cons, ih]
    cases r with
    | acquire => rfl
    | release b =>
      simp only [isRelease, isKept, isRefused, decide_eq_true_eq, if_true]
      split <;> split <;> omega

theorem countP_isOversized_le (log : List (Pool × Request)) :
    log.countP isOversized ≤ log.countP isRelease := by
  refine List.countP_mono_left fun e _ h => ?_
  obtain ⟨p, r⟩ := e
  cases r with
  | acquire => exact h
  | release b => rfl

/-! ## Idle buffers -/

def Request.Roomy : Request → Prop
  | .acquire => True
  | .release b => b.Roomy

structure Sound (p : Pool) : Prop where
  clean : p.Clean
  sized : ∀ b ∈ p.idle, b.Roomy ∧ b.capacity ≤ maxRetained
  bounded : p.idle.length ≤ maxIdle

theorem sound_new : Sound {} :=
  ⟨clean_empty, by simp, Nat.zero_le _⟩

theorem Sound.roomy_acquire {p : Pool} (h : p.Sound) : p.acquire.1.Roomy := by
  cases hidle : p.idle with
  | nil =>
    rw [acquire_of_nil hidle]
    exact Buffer.roomy_empty
  | cons b rest =>
    rw [acquire_of_cons hidle]
    exact (h.sized b (hidle ▸ List.mem_cons_self)).1

theorem Sound.serve {p : Pool} (h : p.Sound) {r : Request} (hr : r.Roomy) : (p.serve r).Sound := by
  refine ⟨?_, ?_, length_idle_serve_le h.bounded r⟩
  · cases r with
    | acquire => exact h.clean.acquire.2
    | release b => exact h.clean.release b
  · intro c hc
    cases r with
    | acquire =>
      rw [Pool.serve, idle_acquire] at hc
      exact h.sized c (List.mem_of_mem_tail hc)
    | release b =>
      rw [Pool.serve, idle_release] at hc
      split at hc
      · rcases List.mem_cons.mp hc with rfl | hc
        · split
          -- A buffer too large to keep is kept as a fresh one.
          · exact ⟨Buffer.roomy_empty, by decide⟩
          · next hsmall => exact ⟨hr, Nat.le_of_not_lt hsmall⟩
        · exact h.sized c hc
      · exact h.sized c hc

theorem Sound.serveAll {p : Pool} (h : p.Sound) {rs : List Request} (hrs : ∀ r ∈ rs, r.Roomy) :
    (p.serveAll rs).Sound := by
  induction rs generalizing p with
  | nil => exact h
  | cons r rs ih =>
    exact ih (h.serve (hrs r List.mem_cons_self)) fun r' hr' => hrs r' (List.mem_cons_of_mem _ hr')

theorem Sound.log {p : Pool} (h : p.Sound) {rs : List Request} (hrs : ∀ r ∈ rs, r.Roomy) :
    ∀ e ∈ p.log rs, e.1.Sound := by
  induction rs generalizing p with
  | nil => simp [Pool.log]
  | cons r rs ih =>
    intro e he
    rcases List.mem_cons.mp he with rfl | he
    · exact h
    · exact ih (h.serve (hrs r List.mem_cons_self))
        (fun r' hr' => hrs r' (List.mem_cons_of_mem _ hr')) e he

/-! ## Last in, first out -/

def Follows (e f : Pool × Request) : Prop := f.1 = e.1.serve e.2

theorem isChain_log (p : Pool) (rs : List Request) : (p.log rs).IsChain Follows := by
  induction rs generalizing p with
  | nil => exact .nil
  | cons r rs ih =>
    cases rs with
    | nil => exact .singleton _
    | cons r' rs => exact .cons_cons rfl (ih (p.serve r))

/-- Only the top of the idle buffers changes. -/
theorem suffix_serve {p : Pool} {r : Request} {below : List Buffer} (h : below <:+ p.idle)
    (hlength : below.length ≤ (p.serve r).idle.length) : below <:+ (p.serve r).idle := by
  cases r with
  | acquire =>
    rw [serve, idle_acquire] at hlength ⊢
    exact List.suffix_of_suffix_length_le h (List.tail_suffix _) hlength
  | release b =>
    rw [serve, idle_release]
    split
    · exact h.trans (List.suffix_cons _ _)
    · exact h

theorem suffix_of_isChain {e f : Pool × Request} {mid : List (Pool × Request)}
    {below : List Buffer} (hchain : (e :: (mid ++ [f])).IsChain Follows) (h : below <:+ e.1.idle)
    (hmid : ∀ g ∈ mid, below.length ≤ g.1.idle.length) (hf : below.length ≤ f.1.idle.length) :
    below <:+ f.1.idle := by
  induction mid generalizing e with
  | nil =>
    have hnext : f.1 = e.1.serve e.2 := (List.isChain_cons_cons.mp hchain).1
    rw [hnext] at hf ⊢
    exact suffix_serve h hf
  | cons g mid ih =>
    obtain ⟨hnext, hrest⟩ := List.isChain_cons_cons.mp hchain
    have hg := hmid g List.mem_cons_self
    refine ih hrest ?_ fun g' hg' => hmid g' (List.mem_cons_of_mem _ hg')
    rw [show g.1 = e.1.serve e.2 from hnext] at hg ⊢
    exact suffix_serve h hg

/-- A buffer that was taken back is handed out as soon as the buffers above it are gone. -/
theorem acquire_of_release {p₀ p q : Pool} {rs : List Request} {b : Buffer}
    {before mid after : List (Pool × Request)}
    (hlog : p₀.log rs = before ++ (p, .release b) :: (mid ++ (q, .acquire) :: after))
    (hroom : p.idle.length < maxIdle) (hsmall : b.capacity ≤ maxRetained)
    (hmid : ∀ e ∈ mid, p.idle.length < e.1.idle.length) (hq : q.idle.length = p.idle.length + 1) :
    q.acquire.1 = ⟨ByteArray.empty, b.capacity⟩ ∧ q.acquire.2.idle = p.idle := by
  have hsplit : p₀.log rs =
      before ++ ((p, .release b) :: (mid ++ [(q, .acquire)]) ++ after) := by
    rw [hlog]
    simp
  have hchain := (hsplit ▸ isChain_log p₀ rs).right_of_append.left_of_append
  have hidle := idle_release_kept hroom hsmall
  have hsuffix : b.clear :: p.idle <:+ q.idle := by
    cases mid with
    | nil =>
      have hnext : q = p.release b := (List.isChain_cons_cons.mp hchain).1
      exact hnext ▸ hidle ▸ List.suffix_refl _
    | cons g mid =>
      obtain ⟨hnext, hrest⟩ := List.isChain_cons_cons.mp hchain
      have hg : g.1.idle = b.clear :: p.idle := hidle ▸ congrArg idle hnext
      exact suffix_of_isChain hrest (hg ▸ List.suffix_refl _)
        (fun e he => hmid e (List.mem_cons_of_mem _ he)) (Nat.le_of_eq hq.symm)
  have htop : q.idle = b.clear :: p.idle := (hsuffix.eq_of_length hq.symm).symm
  rw [acquire_of_cons htop]
  exact ⟨rfl, rfl⟩

end Pool

end PercentFormat
