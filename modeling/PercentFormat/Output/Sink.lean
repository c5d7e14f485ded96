import PercentFormat.Fault

/-! # Sinks

A sink is offered bytes call by call and answers how much it took. Delivering a text offers the
rest again after every short answer and after every interruption, and stops at the first fault. -/

namespace PercentFormat

inductive Reply
  | took (n : Nat)
  | interrupted
  | failed (fault : Fault)

/-- The behaviour of a sink: its answer to a call, given the number of calls before, the bytes it
has accepted and those it is offered. From call number `quiet` on it is not interrupted. -/
structure Sink where
  reply : Nat → ByteArray → ByteArray → Reply
  quiet : Nat
  steady : ∀ calls accepted offered, quiet ≤ calls → reply calls accepted offered ≠ .interrupted

structure Delivery where
  calls : Nat
  accepted : ByteArray
  fault : Option Fault

namespace Sink

/-- Offers bytes until all are taken or a fault ends it. -/
def deliver (s : Sink) (calls : Nat) (accepted offered : ByteArray) : Delivery :=
  if offered.size = 0 then ⟨calls, accepted, none⟩
  else
    match h : s.reply calls accepted offered with
    | .took 0 => ⟨calls + 1, accepted, some .writeZero⟩
    | .took (n + 1) =>
      s.deliver (calls + 1) (accepted ++ offered.extract 0 (n + 1))
        (offered.extract (n + 1) offered.size)
    | .interrupted => s.deliver (calls + 1) accepted offered
    | .failed fault => ⟨calls + 1, accepted, some fault⟩
termination_by offered.size + (s.quiet - calls)
decreasing_by
  · simp only [ByteArray.size_extract]
    omega
  · have hq : ¬ s.quiet ≤ calls := fun hq => s.steady calls accepted offered hq h
    omega

/-- Delivers bytes to a sink that has taken none. An empty text makes no call. -/
def writeAll (s : Sink) (bytes : ByteArray) : Delivery := s.deliver 0 ByteArray.empty bytes

/-! ## Common sinks -/

def everything : Sink where
  reply _ _ offered := .took offered.size
  quiet := 0
  steady := by intros; nofun

def atMost (limit : Nat) : Sink where
  reply _ _ offered := .took (min limit offered.size)
  quiet := 0
  steady := by intros; nofun

/-- Has room for so many bytes in all, and then fails. -/
def withRoom (limit : Nat) (fault : Fault) : Sink where
  reply _ accepted offered :=
    if limit ≤ accepted.size then .failed fault
    else .took (min (limit - accepted.size) offered.size)
  quiet := 0
  steady := by intros; split <;> nofun

def interruptedAtFirst (times : Nat) : Sink where
  reply calls _ offered := if calls < times then .interrupted else .took offered.size
  quiet := times
  steady := by
    intro calls _ _ h
    rw [if_neg (Nat.not_lt.mpr h)]
    nofun

def failing (fault : Fault) : Sink where
  reply _ _ _ := .failed fault
  quiet := 0
  steady := by intros; nofun

end Sink

/-- The outcome of delivering `size` bytes: their number, or the fault. -/
def Delivery.result (d : Delivery) (size : Nat) : Except Fault Nat :=
  match d.fault with
  | none => .ok size
  | some fault => .error fault

end PercentFormat
