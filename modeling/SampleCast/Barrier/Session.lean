import SampleCast.Barrier.Waiting

/-! Sessions on a barrier.
A session is a list of calls. A wait may have calls of its own, which are made while it blocks and
may be waits again; it ends with its calls, and if it is still blocked then, the barrier is shut
down. So a session comes down to the operations that it makes, in order. -/

namespace SampleCast.Barrier

inductive Call
  | operate (op : Operation)
  | askReady
  | askAdvance (lastSeen : Nat)
  | awaitReady (beside : List Call)
  | awaitAdvance (lastSeen : Nat) (beside : List Call)

inductive Reply
  | outcome (o : Outcome)
  | readiness (r : Option Readiness)
  | advance (a : Advance)
  | ready (beside : List (Reply × Barrier)) (r : Option Readiness)
  | advanced (beside : List (Reply × Barrier)) (a : Option Advance)

/-- The operations made during a wait. If the waiter is still blocked after them it is released by a
shutdown. -/
def Waiter.closing {α : Type} (w : Waiter α) (b : Barrier) (made : List Operation) :
    List Operation :=
  if (w.released b made).isSome then made else made ++ [.shutdown]

mutual

def answer (b : Barrier) : Call → Reply × List Operation
  | .operate op => (.outcome (b.apply op).1, [op])
  | .askReady => (.readiness b.readiness, [])
  | .askAdvance lastSeen => (.advance (b.advanceOrTimeOut lastSeen), [])
  | .awaitReady beside =>
    let (replies, made) := answerAll b beside
    let made := producerWaiter.closing b made
    (.ready replies (producerWaiter.released b made), made)
  | .awaitAdvance lastSeen beside =>
    let (replies, made) := answerAll b beside
    let made := (workerWaiter lastSeen).closing b made
    (.advanced replies ((workerWaiter lastSeen).released b made), made)

/-- The replies to the calls of a session, each with the barrier that it left, and the operations
that they make. -/
def answerAll (b : Barrier) : List Call → List (Reply × Barrier) × List Operation
  | [] => ([], [])
  | call :: more =>
    let (reply, made) := answer b call
    let after := b.applyAll made
    let (replies, rest) := answerAll after more
    ((reply, after) :: replies, made ++ rest)

end

end SampleCast.Barrier
