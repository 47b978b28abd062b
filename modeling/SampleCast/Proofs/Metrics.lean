import Mathlib.Algebra.BigOperators.Group.List.Basic
import Mathlib.Algebra.GroupWithZero.Nat
import SampleCast.Metrics.Basic

/-! What the counters count.
Recording an event adds a number to each counter, so that a counter holds the sum over all events
that were recorded, modulo 2^64, and their order does not matter. `tally` is this sum. Only the
active connections also go down, so their law has the closed ones on its other side. -/

namespace SampleCast.Metrics

inductive Counter
  | connectionsAccepted
  | handshakeFailures
  | overflowDrops
  | sendErrors
  | invariantViolations
  | generationsPublished
  | framesSent
  | bytesSent

def Counter.read (m : Metrics) : Counter → UInt64
  | .connectionsAccepted => m.connectionsAccepted
  | .handshakeFailures => m.handshakeFailures
  | .overflowDrops => m.overflowDrops
  | .sendErrors => m.sendErrors
  | .invariantViolations => m.invariantViolations
  | .generationsPublished => m.generationsPublished
  | .framesSent => m.framesSent
  | .bytesSent => m.bytesSent

def Counter.weight : Counter → Event → Nat
  | .connectionsAccepted, .accepted | .handshakeFailures, .handshakeFailed
  | .overflowDrops, .overflowed | .sendErrors, .sendFailed | .invariantViolations, .violated
  | .generationsPublished, .published | .framesSent, .sent _ => 1
  | .bytesSent, .sent bytes => bytes
  | _, _ => 0

def Event.closings : Event → Nat
  | .closed => 1
  | _ => 0

def tally (w : Event → Nat) (log : List Event) : Nat := (log.map w).sum

variable {w : Event → Nat} {log log' : List Event} {m : Metrics}

@[simp] theorem tally_nil : tally w [] = 0 := rfl

@[simp] theorem tally_cons (e : Event) : tally w (e :: log) = w e + tally w log := by simp [tally]

@[simp] theorem tally_append : tally w (log ++ log') = tally w log + tally w log' := by
  simp [tally]

theorem tally_perm (h : log.Perm log') : tally w log = tally w log' := (h.map w).sum_eq

theorem tally_replicate (n : Nat) (e : Event) : tally w (List.replicate n e) = n * w e := by
  simp [tally]

theorem tally_flatMap {α : Type} (xs : List α) (f : α → List Event) :
    tally w (xs.flatMap f) = (xs.map fun x => tally w (f x)).sum := by
  induction xs with
  | nil => rfl
  | cons x xs ih => rw [List.flatMap_cons, tally_append, ih, List.map_cons, List.sum_cons]

namespace Counter

theorem read_record (k : Counter) (m : Metrics) (e : Event) :
    k.read (m.record e) = k.read m + UInt64.ofNat (k.weight e) := by
  cases k <;> cases e <;> simp [read, record, weight]

theorem read_foldl (k : Counter) (log : List Event) (m : Metrics) :
    k.read (log.foldl record m) = k.read m + UInt64.ofNat (tally k.weight log) := by
  induction log generalizing m with
  | nil => simp
  | cons e log ih =>
    rw [List.foldl_cons, ih, read_record, tally_cons, UInt64.ofNat_add, UInt64.add_assoc]

end Counter

theorem activeConnections_record (m : Metrics) (e : Event) :
    (m.record e).activeConnections + UInt64.ofNat e.closings =
      m.activeConnections + UInt64.ofNat (Counter.connectionsAccepted.weight e) := by
  cases e <;> simp [record, Event.closings, Counter.weight]

theorem activeConnections_foldl (log : List Event) (m : Metrics) :
    (log.foldl record m).activeConnections + UInt64.ofNat (tally Event.closings log) =
      m.activeConnections + UInt64.ofNat (tally Counter.connectionsAccepted.weight log) := by
  induction log generalizing m with
  | nil => rfl
  | cons e log ih =>
    rw [List.foldl_cons, tally_cons, tally_cons, UInt64.ofNat_add, UInt64.ofNat_add]
    calc
      _ = (log.foldl record (m.record e)).activeConnections +
          UInt64.ofNat (tally Event.closings log) + UInt64.ofNat e.closings := by ac_rfl
      _ = (m.record e).activeConnections + UInt64.ofNat e.closings +
          UInt64.ofNat (tally Counter.connectionsAccepted.weight log) := by
        rw [ih]
        ac_rfl
      _ = _ := by rw [activeConnections_record, UInt64.add_assoc]

end SampleCast.Metrics
