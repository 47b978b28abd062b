/-! The bounded queue between a connection and its sender.
A fixed array of slots holds the queued items in a window that moves to the right as they are taken.
A push that meets the end of the array first moves the window back to the front, which is counted as
a compaction, and is refused if the window fills the array. Queued items can still be taken after
the queue was closed.

The view of a queue is `toList`, the items of the window, the oldest first. -/

namespace SampleCast

structure Queue (α : Type) where
  capacity : Nat
  slots : List (Option α)
  start : Nat := 0
  count : Nat := 0
  closed : Bool := false
  compactions : Nat := 0
  deriving DecidableEq, Inhabited

inductive Pushed
  | accepted
  | overflow
  deriving DecidableEq, Inhabited

inductive Popped (α : Type)
  | item (a : α)
  | closed
  | empty
  deriving DecidableEq, Inhabited

namespace Queue

variable {α : Type}

def defaultCapacity : Nat := 256

/-- An empty queue. Its capacity is at least one. Memory for the slots is taken for granted, however
large the capacity. -/
def ofCapacity (n : Nat) : Queue α :=
  { capacity := max n 1, slots := List.replicate (max n 1) none }

def window (q : Queue α) : List (Option α) := (q.slots.drop q.start).take q.count

def toList (q : Queue α) : List α := q.window.filterMap id

def isEmpty (q : Queue α) : Bool := q.count == 0

def stop (q : Queue α) : Nat := q.start + q.count

/-- Rotates the slots up to the end of the window, so that the window comes to the front. -/
def compact (q : Queue α) : Queue α :=
  { q with
    slots := (q.slots.take q.stop).drop q.start ++ q.slots.take q.start ++ q.slots.drop q.stop
    start := 0
    compactions := q.compactions + 1 }

def store (q : Queue α) (a : α) : Queue α :=
  { q with slots := q.slots.set q.stop (some a), count := q.count + 1 }

def push (q : Queue α) (a : α) : Pushed × Queue α :=
  if q.closed then (.overflow, q)
  else if q.stop < q.capacity then (.accepted, q.store a)
  else if q.start = 0 then (.overflow, q)
  else (.accepted, q.compact.store a)

def pop (q : Queue α) : Option α × Queue α :=
  if q.count = 0 then (none, q)
  else
    ((q.slots[q.start]?).join,
      { q with slots := q.slots.set q.start none, start := q.start + 1, count := q.count - 1 })

def popOrTimeOut (q : Queue α) : Popped α × Queue α :=
  match q.pop with
  | (some a, q) => (.item a, q)
  | (none, q) => (if q.closed then .closed else .empty, q)

/-- A pop that gives up only when told to stop. It asks after every time-out, and `answers` are the
replies; `none` says that it is still waiting when they run out. The number counts the questions. -/
def popUntil (q : Queue α) : List Bool → Option (Popped α) × Nat × Queue α
  | [] =>
    match q.popOrTimeOut with
    | (.empty, q) => (none, 0, q)
    | (p, q) => (some p, 0, q)
  | answer :: more =>
    match q.popOrTimeOut with
    | (.empty, q) =>
      if answer then (some .closed, 1, q)
      else
        let (p, n, q) := q.popUntil more
        (p, n + 1, q)
    | (p, q) => (some p, 0, q)

def close (q : Queue α) : Queue α := { q with closed := true }

def drain (q : Queue α) : Nat × Queue α :=
  (q.count,
    { q with
      slots := List.replicate q.slots.length none
      start := 0
      count := 0
      closed := true })

end Queue
end SampleCast
