import SampleCast.Barrier.Basic

/-! Waiting on a barrier.
The producer waits until no member owes, a worker until a generation newer than its last one opens,
and both until the barrier is stopped. Each of the two lines of waiters is woken by the operations
that can release it, and a waiter looks at the barrier whenever its line is woken. -/

namespace SampleCast.Barrier

inductive Operation
  | join
  | leave (worker : WorkerId)
  | acknowledge (worker : WorkerId) (generation : Nat)
  | reset
  | shutdown
  deriving DecidableEq, Inhabited

inductive Outcome
  | joined (worker : WorkerId) (generation : Nat)
  | left (wasAlive : Bool)
  | acknowledged (result : Except AckError Unit)
  | opened (generation : Nat)
  | stopped (before after : Bool)

def apply (b : Barrier) : Operation → Outcome × Barrier
  | .join => (.joined b.join.1.1 b.join.1.2, b.join.2)
  | .leave w => (.left (b.leave w).1, (b.leave w).2)
  | .acknowledge w g => (.acknowledged (b.acknowledge w g).1, (b.acknowledge w g).2)
  | .reset => (.opened b.reset.1, b.reset.2)
  | .shutdown => (.stopped b.stopped b.shutdown.stopped, b.shutdown)

def applyAll (b : Barrier) : List Operation → Barrier
  | [] => b
  | op :: more => applyAll (b.apply op).2 more

inductive Readiness
  | ready (generation : Nat)
  | stopped
  deriving DecidableEq, Inhabited

def readiness (b : Barrier) : Option Readiness :=
  if b.stopped then some .stopped
  else if b.isReady then some (.ready b.generation)
  else none

inductive Advance
  | advanced (generation : Nat)
  | timedOut
  | stopped
  deriving DecidableEq, Inhabited

/-- What a worker is told that has seen the generations up to `lastSeen`, or `none` while it has to
wait. -/
def advance (b : Barrier) (lastSeen : Nat) : Option Advance :=
  if b.stopped then some .stopped
  else if lastSeen < b.generation then some (.advanced b.generation)
  else none

def advanceOrTimeOut (b : Barrier) (lastSeen : Nat) : Advance :=
  (b.advance lastSeen).getD .timedOut

structure Wake where
  producer : Bool
  workers : Bool
  deriving DecidableEq, Inhabited

/-- An accepted acknowledgment wakes the producer if it was the last one owed. -/
def wakes (b : Barrier) : Operation → Wake
  | .join => ⟨true, false⟩
  | .leave _ => ⟨true, true⟩
  | .acknowledge w g =>
    match b.acknowledge w g with
    | (.ok _, after) => ⟨after.isReady, false⟩
    | (.error _, _) => ⟨false, false⟩
  | .reset => ⟨false, true⟩
  | .shutdown => ⟨true, true⟩

structure Waiter (α : Type) where
  line : Wake → Bool
  told : Barrier → Option α

def producerWaiter : Waiter Readiness := ⟨Wake.producer, readiness⟩

def workerWaiter (lastSeen : Nat) : Waiter Advance := ⟨Wake.workers, fun b => b.advance lastSeen⟩

namespace Waiter

/-- What a blocked waiter is told by the first operation that wakes its line and leaves the barrier
as it needs it. -/
def wokenBy {α : Type} (w : Waiter α) : Barrier → List Operation → Option α
  | _, [] => none
  | b, op :: more =>
    let after := (b.apply op).2
    (if w.line (b.wakes op) then w.told after else none).or (w.wokenBy after more)

/-- What a waiter is told that comes to the barrier before a list of operations, or `none` if it is
still blocked after them. -/
def released {α : Type} (w : Waiter α) (b : Barrier) (ops : List Operation) : Option α :=
  (w.told b).or (w.wokenBy b ops)

end Waiter
end SampleCast.Barrier
