import PercentFormat.Formatter
import PercentFormat.Proofs.Output.Accounts
import PercentFormat.Proofs.Output.Paths

/-!
# Sinks that refuse

A sink may take a text in parts, ask to be called again, and refuse the rest of it at any call. The
answer of a formatter tells how it went, and nothing else depends on it.
-/

namespace PercentFormat

/-- The fault of a reply that ends a delivery. To take nothing is a fault too. -/
def Reply.fault? : Reply → Option Fault
  | .took 0 => some .writeZero
  | .took (_ + 1) => none
  | .interrupted => none
  | .failed fault => some fault

/-- How much of so many bytes a reply takes. -/
def Reply.taken (size : Nat) : Reply → Nat
  | .took n => min n size
  | .interrupted => 0
  | .failed _ => 0

namespace Sink

/-- The reply to a call when the first `done` bytes have been accepted and the others are
offered. -/
def replyTo (s : Sink) (bytes : ByteArray) (calls done : Nat) : Reply :=
  s.reply calls (bytes.extract 0 done) (bytes.extract done bytes.size)

/-- After so many calls, each with all the bytes that were left and none with a fault, the sink has
accepted so many bytes. -/
inductive Reaches (s : Sink) (bytes : ByteArray) : Nat → Nat → Prop
  | start : Reaches s bytes 0 0
  | call {calls done : Nat} (h : Reaches s bytes calls done) (left : done < bytes.size)
      (well : (s.replyTo bytes calls done).fault? = none) :
      Reaches s bytes (calls + 1) (done + (s.replyTo bytes calls done).taken (bytes.size - done))

/-- A delivery ends when all is accepted, or at the first call with a fault. -/
inductive Ends (s : Sink) (bytes : ByteArray) : Delivery → Prop
  | whole {calls : Nat} (h : s.Reaches bytes calls bytes.size) : Ends s bytes ⟨calls, bytes, none⟩
  | refused {calls done : Nat} {fault : Fault} (h : s.Reaches bytes calls done)
      (left : done < bytes.size) (hfault : (s.replyTo bytes calls done).fault? = some fault) :
      Ends s bytes ⟨calls + 1, bytes.extract 0 done, some fault⟩

variable {s : Sink} {bytes : ByteArray} {calls done : Nat}

theorem Reaches.le_size (h : s.Reaches bytes calls done) : done ≤ bytes.size := by
  induction h with
  | start => exact Nat.zero_le _
  | @call calls done _ left _ _ =>
    have htaken : (s.replyTo bytes calls done).taken (bytes.size - done) ≤ bytes.size - done := by
      cases s.replyTo bytes calls done with
      | took n => exact Nat.min_le_right _ _
      | interrupted => exact Nat.zero_le _
      | failed fault => exact Nat.zero_le _
    omega

/-- The parts of a text that are accepted and offered after a call that takes something. -/
theorem parts_took (h : done < bytes.size) (n : Nat) :
    bytes.extract 0 done ++ (bytes.extract done bytes.size).extract 0 n =
        bytes.extract 0 (done + min n (bytes.size - done)) ∧
      (bytes.extract done bytes.size).extract n (bytes.extract done bytes.size).size =
        bytes.extract (done + min n (bytes.size - done)) bytes.size := by
  have hnext : min (done + n) bytes.size = done + min n (bytes.size - done) := by omega
  refine ⟨?_, ?_⟩
  · rw [ByteArray.extract_extract, Nat.add_zero, hnext, ByteArray.extract_append_extract,
      Nat.zero_min, Nat.max_eq_right (Nat.le_add_right _ _)]
  · have hsize : (bytes.extract done bytes.size).size = bytes.size - done := by
      rw [ByteArray.size_extract, Nat.min_self]
    rw [hsize, ByteArray.extract_extract, Nat.add_sub_cancel' h.le, Nat.min_self, ← hnext]
    by_cases hn : done + n ≤ bytes.size
    · rw [Nat.min_eq_left hn]
    · -- More than was offered counts as all of it.
      have hempty {i : Nat} (hi : bytes.size ≤ i) : bytes.extract i bytes.size = ByteArray.empty :=
        ByteArray.extract_eq_empty_iff.mpr (by omega)
      rw [hempty (by omega), hempty (by omega)]

theorem deliver_fault {accepted offered : ByteArray} {fault : Fault} (h : offered.size ≠ 0)
    (hr : (s.reply calls accepted offered).fault? = some fault) :
    s.deliver calls accepted offered = ⟨calls + 1, accepted, some fault⟩ := by
  rw [deliver, if_neg h]
  split <;> simp_all [Reply.fault?]

/-- Whatever was accepted so far, the delivery goes on with the rest to its end. -/
theorem ends_deliver (h : s.Reaches bytes calls done) :
    s.Ends bytes (s.deliver calls (bytes.extract 0 done) (bytes.extract done bytes.size)) := by
  generalize haccepted : bytes.extract 0 done = accepted
  generalize hoffered : bytes.extract done bytes.size = offered
  have hsize : offered.size = bytes.size - done := by
    rw [← hoffered, ByteArray.size_extract, Nat.min_self]
  have hreply : s.reply calls accepted offered = s.replyTo bytes calls done := by
    rw [replyTo, haccepted, hoffered]
  induction calls, accepted, offered using Sink.deliver.induct s generalizing done with
  | case1 calls accepted offered hempty =>
    have hall : done = bytes.size := Nat.le_antisymm h.le_size (by omega)
    rw [deliver_empty hempty, ← haccepted, hall, ByteArray.extract_zero_size]
    exact .whole (hall ▸ h)
  | case2 calls accepted offered hne hr =>
    rw [hreply] at hr
    have hfault : (s.replyTo bytes calls done).fault? = some .writeZero := by rw [hr]; rfl
    rw [deliver_fault hne (hreply ▸ hfault), ← haccepted]
    exact .refused h (by omega) hfault
  | case3 calls accepted offered hne n hr ih =>
    have hleft : done < bytes.size := by omega
    obtain ⟨hfront, hback⟩ := parts_took hleft (n + 1)
    rw [haccepted, hoffered] at hfront
    rw [hoffered] at hback
    have hnext := h.call hleft (by rw [← hreply, hr]; rfl)
    rw [← hreply, hr, Reply.taken] at hnext
    rw [deliver_took hne hr]
    exact ih hnext hfront.symm hback.symm (by rw [hback, ByteArray.size_extract, Nat.min_self])
      (by rw [hfront, hback, replyTo])
  | case4 calls accepted offered hne hr ih =>
    have hnext : s.Reaches bytes (calls + 1) done := by
      have hcall := h.call (by omega) (by rw [← hreply, hr]; rfl)
      rwa [← hreply, hr] at hcall
    rw [deliver_interrupted hne hr]
    exact ih hnext haccepted hoffered hsize (by rw [replyTo, haccepted, hoffered])
  | case5 calls accepted offered hne fault hr =>
    have hfault : (s.replyTo bytes calls done).fault? = some fault := by rw [← hreply, hr]; rfl
    rw [deliver_fault hne (hreply ▸ hfault), ← haccepted]
    exact .refused h (by omega) hfault

theorem ends_writeAll (s : Sink) (bytes : ByteArray) : s.Ends bytes (s.writeAll bytes) := by
  have hstart : s.Reaches bytes 0 0 := .start
  have h := ends_deliver hstart
  rw [ByteArray.extract_zero_size] at h
  have hnone : bytes.extract 0 0 = ByteArray.empty := ByteArray.extract_eq_empty_iff.mpr (by omega)
  rwa [hnone] at h

/-- A sink that has taken nothing is not called for nothing. -/
theorem Reaches.calls_eq_zero (h : s.Reaches bytes calls done) (hempty : bytes.size = 0) :
    calls = 0 := by
  cases h with
  | start => rfl
  | call _ left _ => omega

end Sink

/-! ## Answers -/

/-- An answer tells how the delivery of a text ended. It is the number of all bytes if the sink
accepted them, and otherwise the first fault, the bytes before it being accepted. -/
structure Delivery.Told (s : Sink) (text : String) (answer : Except Fault Nat) (d : Delivery) :
    Prop where
  ok_iff : (∃ n, answer = .ok n) ↔ d.accepted = text.toUTF8
  ok : ∀ n, answer = .ok n →
    n = text.utf8ByteSize ∧ d.accepted = text.toUTF8 ∧ s.Reaches text.toUTF8 d.calls n
  error : ∀ fault, answer = .error fault → ∃ calls done,
    d.calls = calls + 1 ∧ s.Reaches text.toUTF8 calls done ∧
      (s.replyTo text.toUTF8 calls done).fault? = some fault ∧
      done < text.utf8ByteSize ∧ d.accepted = text.toUTF8.extract 0 done
  empty : text = "" → answer = .ok 0 ∧ d.calls = 0 ∧ d.accepted = ByteArray.empty

theorem Sink.Ends.told {s : Sink} {text : String} {d : Delivery} (h : s.Ends text.toUTF8 d) :
    d.Told s text (d.result text.utf8ByteSize) := by
  have hsize : text.toUTF8.size = text.utf8ByteSize := text.size_toByteArray
  have hnothing (hempty : text = "") : text.toUTF8.size = 0 := by rw [hempty]; rfl
  cases h with
  | @whole calls h =>
    refine ⟨⟨fun _ => rfl, fun _ => ⟨_, rfl⟩⟩, ?_, ?_, ?_⟩
    · intro n hn
      obtain rfl : text.utf8ByteSize = n := Except.ok.inj hn
      exact ⟨rfl, rfl, hsize ▸ h⟩
    · intro fault hfault
      exact absurd hfault (by simp [Delivery.result])
    · intro hempty
      refine ⟨?_, h.calls_eq_zero (hnothing hempty), ?_⟩
      · rw [← hsize, hnothing hempty]
        rfl
      · exact ByteArray.size_eq_zero_iff.mp (hnothing hempty)
  | @refused calls done fault h left hfault =>
    refine ⟨⟨?_, ?_⟩, ?_, ?_, ?_⟩
    · rintro ⟨n, hn⟩
      exact absurd hn (by simp [Delivery.result])
    · intro hall
      have hcut := congrArg ByteArray.size hall
      simp only [ByteArray.size_extract] at hcut
      omega
    · intro n hn
      exact absurd hn (by simp [Delivery.result])
    · intro fault' hfault'
      obtain rfl : fault = fault' := Except.error.inj hfault'
      exact ⟨calls, done, rfl, h, hfault, hsize ▸ left, rfl⟩
    · intro hempty
      exact absurd left (by rw [hnothing hempty]; exact Nat.not_lt_zero _)

/-! ## Pools -/

namespace Pool

theorem length_idle_serveAll_le {p : Pool} (h : p.idle.length ≤ maxIdle) (rs : List Request) :
    (p.serveAll rs).idle.length ≤ maxIdle := by
  induction rs generalizing p with
  | nil => exact h
  | cons r rs ih => exact ih (length_idle_serve_le h r)

theorem Reachable.length_idle_le {p : Pool} (h : p.Reachable) : p.idle.length ≤ maxIdle := by
  induction h with
  | new => exact Nat.zero_le _
  | acquire _ ih => exact length_idle_serve_le ih .acquire
  | release _ b ih => exact length_idle_serve_le ih (.release b)
  | @renderToString p _ t args ih =>
    rw [Lending.pool_renderToString]
    exact length_idle_serveAll_le ih _
  | @renderToSink p _ t args sink ih =>
    exact length_idle_serveAll_le ih (p.roundTrip (t.edits args))
  | @concatToString p _ line args ih =>
    unfold Pool.concatToString
    split
    · exact ih
    · exact ih
    · exact ih
    · exact length_idle_serveAll_le ih (p.roundTrip (concatEdits line args))
  | @concatToSink p _ line args sink ih =>
    exact length_idle_serveAll_le ih (p.roundTrip (concatEdits line args))

/-- The buffer that a pool handed out lies on top of its idle ones again, with nothing in it. -/
def TookBack (p q : Pool) : Prop :=
  ∃ b, b.bytes = ByteArray.empty ∧ q.idle = b :: p.acquire.2.idle

theorem tookBack_release {p : Pool} (h : p.idle.length ≤ maxIdle) (b : Buffer) :
    p.TookBack (p.acquire.2.release b) := by
  have hroom : p.acquire.2.idle.length < maxIdle := by
    rw [idle_acquire, List.length_tail]
    have hpos : 0 < maxIdle := by decide
    omega
  refine ⟨_, ?_, by rw [idle_release, if_pos hroom]⟩
  split <;> rfl

theorem Clean.told {p : Pool} (h : p.Clean) (es : List Edit) (sink : Sink) :
    (p.deliver es sink).2.1.Told sink (Edit.allAdded es) (p.deliver es sink).1 := by
  have hends := sink.ends_writeAll (Edit.allAdded es).toUTF8
  have hsize : (Edit.allAdded es).toUTF8.size = (Edit.allAdded es).utf8ByteSize :=
    String.size_toByteArray
  simp only [Pool.deliver, Buffer.size, h.filled es, hsize]
  exact hends.told

end Pool

/-! ## Formatters -/

namespace Formatter

theorem reachable_apply {f : Formatter} (h : f.pool.Reachable) (call : Call) :
    (f.apply call).pool.Reachable := by
  cases call with
  | sprintf format args => exact h.renderToString _ args
  | errorf format args => exact h.renderToString _ args
  | fprintf format args sink => exact h.renderToSink _ args sink
  | lookup format => exact h
  | setThreshold t => exact h
  | purge => exact h

theorem reachable_run {f : Formatter} (h : f.pool.Reachable) (calls : List Call) :
    (f.run calls).pool.Reachable := by
  induction calls generalizing f with
  | nil => exact h
  | cons call calls ih => exact ih (reachable_apply h call)

/-- Writing to a sink what a formatter can give as a text, with all that is left behind. -/
structure Delivers (f : Formatter) (sink : Sink) (given : String × Formatter)
    (written : Except Fault Nat × Delivery × Formatter) : Prop where
  told : written.2.1.Told sink given.1 written.1
  pool : f.pool.TookBack written.2.2.pool
  registry : written.2.2.registry = given.2.registry

/-- Whatever a sink does, each way to write to it tells how it went with the text of its string
variant. The pool and the registry are left as if the sink had taken everything. -/
theorem refusals_told {f : Formatter} (hp : f.pool.Reachable) (sink : Sink) :
    (∀ format args, f.Delivers sink (f.sprintf format args) (f.fprintf format args sink)) ∧
      (∀ t args, f.Delivers sink (f.sprintfCompiled t args) (f.writeCompiled t args sink)) ∧
      ∀ line args, f.Delivers sink (f.sprint line args) (f.fprint line args sink) := by
  have hcompiled : ∀ t args,
      f.Delivers sink (f.sprintfCompiled t args) (f.writeCompiled t args sink) := by
    intro t args
    have htext : (f.sprintfCompiled t args).1 = Edit.allAdded (t.edits args) :=
      (hp.clean.renderToString t args).1.trans (t.render_eq args)
    refine ⟨?_, Pool.tookBack_release hp.length_idle_le _, rfl⟩
    rw [htext]
    exact hp.clean.told (t.edits args) sink
  refine ⟨?_, hcompiled, ?_⟩
  · -- The lookup leaves the pool alone, so what is left is to write its template.
    intro format args
    obtain ⟨htold, hpool, -⟩ := hcompiled (f.lookup format).1 args
    exact ⟨htold, hpool, rfl⟩
  · intro line args
    have htext : (f.sprint line args).1 = Edit.allAdded (Pool.concatEdits line args) :=
      (hp.clean.concatToString line args).1.trans (allAdded_concatEdits line args).symm
    refine ⟨?_, Pool.tookBack_release hp.length_idle_le _, rfl⟩
    rw [htext]
    exact hp.clean.told (Pool.concatEdits line args) sink

/-- After a sink that failed at once, one that gets full in the middle of a text, and one that
interrupts. -/
theorem refusals_told_full :
    let f := ({} : Formatter).run
      [.sprintf "%s" ["a"], .fprintf "%s" ["b"] (.failing ⟨.brokenPipe, "gone"⟩)]
    let full : Fault := ⟨.storageFull, "full"⟩
    f.pool.Reachable ∧
      f.Delivers (.withRoom 3 full) (f.sprintf "%s-%s" ["é", "b"])
        (f.fprintf "%s-%s" ["é", "b"] (.withRoom 3 full)) ∧
      (f.fprintf "%s-%s" ["é", "b"] (.withRoom 3 full)).1 = .error full ∧
      (f.fprintf "%s-%s" ["é", "b"] (.withRoom 3 full)).2.1.accepted = "é-".toUTF8 ∧
      f.Delivers (.interruptedAtFirst 2) (f.sprint true ["é"])
        (f.fprint true ["é"] (.interruptedAtFirst 2)) := by
  intro f full
  have hp : f.pool.Reachable := reachable_run .new _
  obtain ⟨hfull, -, -⟩ := refusals_told hp (.withRoom 3 full)
  obtain ⟨-, -, hinterrupted⟩ := refusals_told hp (.interruptedAtFirst 2)
  exact ⟨hp, hfull _ _, by decide +kernel, by decide +kernel, hinterrupted _ _⟩

end Formatter

end PercentFormat
