/-! The barrier between one producer and its workers.
A worker joins, acknowledges every generation that is opened while it is a member, and leaves. A
member is `fresh` until the next generation opens, then it owes an acknowledgment, and then it has
settled. The producer opens a generation when no member owes the previous one.

The four sets of the protocol are views of the member list: `alive` are all members, `active` those
that were members when the generation opened, `pending` those that owe and `done` those that have
settled. Members are listed in the order in which they joined. That four sets with operations of
their own come to the same is `Sets.mirrors_applyAll`. -/

namespace SampleCast

/-- Workers are numbered from one in the order in which they join. -/
abbrev WorkerId := Nat

inductive Standing
  | fresh
  | owing
  | settled
  deriving DecidableEq, Inhabited

structure Member where
  id : WorkerId
  standing : Standing
  deriving DecidableEq, Inhabited

/-- Generations and workers are counted without bound. Words of 64 bits count alike as long as fewer
than 2^64 workers join and fewer than 2^64 generations open. -/
structure Barrier where
  generation : Nat := 0
  members : List Member := []
  nextId : WorkerId := 1
  stopped : Bool := false
  deriving DecidableEq, Inhabited

inductive AckError
  | alreadyAcknowledged (worker : WorkerId) (generation : Nat)
  | notActive (worker : WorkerId) (generation : Nat)
  | staleGeneration (worker : WorkerId) (acknowledged current : Nat)
  deriving DecidableEq, Inhabited

def AckError.message : AckError → String
  | .alreadyAcknowledged w g => s!"worker #{w} already acknowledged generation {g}"
  | .notActive w g => s!"worker #{w} is not an active participant of generation {g}"
  | .staleGeneration w a g =>
    s!"worker #{w} acknowledged generation {a} while generation {g} is open"

namespace Barrier

def ids (members : List Member) (p : Standing → Bool) : List WorkerId :=
  (members.filter fun m => p m.standing).map (·.id)

def alive (b : Barrier) : List WorkerId := ids b.members fun _ => true

def active (b : Barrier) : List WorkerId := ids b.members (· != .fresh)

def pending (b : Barrier) : List WorkerId := ids b.members (· == .owing)

def done (b : Barrier) : List WorkerId := ids b.members (· == .settled)

def isAlive (b : Barrier) (w : WorkerId) : Bool := b.members.any (·.id == w)

def standing? (b : Barrier) (w : WorkerId) : Option Standing :=
  (b.members.find? (·.id == w)).map (·.standing)

def isReady (b : Barrier) : Bool := b.members.all (·.standing != .owing)

/-- The new worker has seen the generation that is open, and takes part from the next one on. -/
def join (b : Barrier) : (WorkerId × Nat) × Barrier :=
  ((b.nextId, b.generation),
    { b with members := b.members ++ [⟨b.nextId, .fresh⟩], nextId := b.nextId + 1 })

def leave (b : Barrier) (w : WorkerId) : Bool × Barrier :=
  (b.isAlive w, { b with members := b.members.filter (·.id != w) })

def settle (w : WorkerId) (m : Member) : Member :=
  if m.id = w then { m with standing := .settled } else m

def acknowledge (b : Barrier) (w : WorkerId) (generation : Nat) : Except AckError Unit × Barrier :=
  match b.standing? w with
  | some .settled => (.error (.alreadyAcknowledged w b.generation), b)
  | some .owing =>
    if generation = b.generation then (.ok (), { b with members := b.members.map (settle w) })
    else (.error (.staleGeneration w generation b.generation), b)
  | _ => (.error (.notActive w b.generation), b)

/-- Opens the next generation, which every member owes. -/
def reset (b : Barrier) : Nat × Barrier :=
  (b.generation + 1,
    { b with
      generation := b.generation + 1
      members := b.members.map fun m => { m with standing := .owing } })

def shutdown (b : Barrier) : Barrier := { b with stopped := true }

end Barrier
end SampleCast
