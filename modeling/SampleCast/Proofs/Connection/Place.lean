import SampleCast.Proofs.Barrier.Membership
import SampleCast.Proofs.Connection.Steps

/-! The place of a connection at the hub.
A connection has a worker at the barrier from the moment its feeder joins until the feeder leaves.
It does nothing at the hub that another connection could notice: it writes no block, opens no
generation, and its operations at the barrier are about its own worker. -/

namespace SampleCast

namespace FeederPhase

def seat? : FeederPhase → Option Seat
  | .replying seat _ | .abandoning seat _ | .checking seat | .waiting seat | .copying seat _
  | .queueing seat _ _ | .acknowledging seat _ | .closing seat _ .leaving => some seat
  | _ => none

def worker? (p : FeederPhase) : Option WorkerId := p.seat?.map (·.worker)

def joined? (p q : FeederPhase) : Option Seat :=
  match p, q with
  | .joining _, .replying seat _ => some seat
  | _, _ => none

def queued? (p q : FeederPhase) : Option (Nat × Frame) :=
  match p, q with
  | .queueing _ g frame, .acknowledging .. => some (g, frame)
  | _, _ => none

@[simp] theorem joined?_self (p : FeederPhase) : p.joined? p = none := by cases p <;> rfl

@[simp] theorem queued?_self (p : FeederPhase) : p.queued? p = none := by cases p <;> rfl

theorem worker?_of_seat? {p : FeederPhase} {seat : Seat} (h : p.seat? = some seat) :
    p.worker? = some seat.worker := by rw [worker?, h, Option.map_some]

end FeederPhase

namespace Hub

variable {h : Hub}

@[simp] theorem barrier_record {e : Metrics.Event} : (h.record e).barrier = h.barrier := rfl

@[simp] theorem slot_record {e : Metrics.Event} : (h.record e).slot = h.slot := rfl

@[simp] theorem barrier_recordAll {es : List Metrics.Event} :
    (es.foldl record h).barrier = h.barrier := by
  induction es generalizing h with
  | nil => rfl
  | cons e es ih => rw [List.foldl_cons, ih, barrier_record]

@[simp] theorem slot_recordAll {es : List Metrics.Event} : (es.foldl record h).slot = h.slot := by
  induction es generalizing h with
  | nil => rfl
  | cons e es ih => rw [List.foldl_cons, ih, slot_record]

end Hub

namespace Barrier

/-- Nothing at the barrier has changed for the worker. -/
structure Spares (w : WorkerId) (b b' : Barrier) : Prop where
  generation : b'.generation = b.generation
  alive : w ∈ b'.alive ↔ w ∈ b.alive
  pending : w ∈ b'.pending ↔ w ∈ b.pending

variable {b : Barrier} {v w : WorkerId}

theorem Spares.refl : Spares w b b := ⟨rfl, Iff.rfl, Iff.rfl⟩

theorem spares_join (h : b.Sound) (hv : v ∈ b.alive) : Spares v b b.join.2 := by
  have hne : v ≠ b.nextId := Nat.ne_of_lt (h.lt_nextId hv)
  exact ⟨rfl, by simp [hne], mem_pending_join⟩

theorem spares_leave (hv : v ≠ w) : Spares v b (b.leave w).2 :=
  ⟨rfl, by simp [hv], by simp [hv]⟩

theorem spares_acknowledge (h : b.Sound) (hv : v ≠ w) (g : Nat) :
    Spares v b (b.acknowledge w g).2 := by
  rcases h.acknowledge_cases w g with ⟨-, -, he⟩ | ⟨e, he, -⟩
  · rw [he]
    exact ⟨rfl, by simp, by simp [hv]⟩
  · rw [he]
    exact .refl

theorem spares_shutdown : Spares w b b.shutdown := ⟨rfl, Iff.rfl, Iff.rfl⟩

end Barrier

namespace Connection

/-- The operations at the barrier that a connection may make: it joins, or it acts for the worker it
has. -/
inductive OwnOperation (c : Connection) : Barrier.Operation → Prop
  | join : OwnOperation c .join
  | leave {seat : Seat} (hs : c.feeder.seat? = some seat) : OwnOperation c (.leave seat.worker)
  | acknowledge {seat : Seat} {g : Nat} (hs : c.feeder.seat? = some seat) :
      OwnOperation c (.acknowledge seat.worker g)

variable {station : Station} {hub hub' : Hub} {c c' : Connection}

theorem OwnOperation.ne_reset {op : Barrier.Operation} (h : c.OwnOperation op) : op ≠ .reset := by
  cases h <;> simp

theorem OwnOperation.spares {op : Barrier.Operation} {b : Barrier} {v : WorkerId}
    (h : c.OwnOperation op) (hs : b.Sound) (hv : v ∈ b.alive) (hc : c.feeder.worker? ≠ some v) :
    Barrier.Spares v b (b.apply op).2 := by
  have hne : ∀ seat, c.feeder.seat? = some seat → v ≠ seat.worker := by
    intro seat hseat hv
    exact hc (by rw [FeederPhase.worker?_of_seat? hseat, hv])
  cases h with
  | join => exact Barrier.spares_join hs hv
  | leave hseat => exact Barrier.spares_leave (hne _ hseat)
  | acknowledge hseat => exact Barrier.spares_acknowledge hs (hne _ hseat) _

theorem FeederStep.barrier (h : FeederStep station hub c hub' c') :
    hub'.barrier = hub.barrier ∨
      ∃ op, c.OwnOperation op ∧ hub'.barrier = (hub.barrier.apply op).2 := by
  cases h with
  | join hc => exact .inr ⟨.join, .join, rfl⟩
  | abandon hc => exact .inr ⟨_, .leave (by rw [hc]; rfl), rfl⟩
  | leave hc => exact .inr ⟨_, .leave (by rw [hc]; rfl), rfl⟩
  | acknowledge hc ha =>
    exact .inr ⟨_, .acknowledge (by rw [hc]; rfl), (congrArg Prod.snd ha).symm⟩
  | violate hc ha =>
    exact .inr ⟨_, .acknowledge (by rw [hc]; rfl), (congrArg Prod.snd ha).symm⟩
  | record hc => exact .inl Hub.barrier_recordAll
  | _ => exact .inl rfl

structure Undisturbed (c : Connection) (b b' : Barrier) : Prop where
  sound : b'.Sound
  generation : b'.generation = b.generation
  ready : b.isReady = true → b'.isReady = true
  spares : ∀ w ∈ b.alive, c.feeder.worker? ≠ some w → Barrier.Spares w b b'

theorem FeederStep.undisturbed (h : FeederStep station hub c hub' c') (hs : hub.barrier.Sound) :
    c.Undisturbed hub.barrier hub'.barrier := by
  rcases h.barrier with he | ⟨op, hop, he⟩
  · rw [he]
    exact ⟨hs, rfl, id, fun _ _ _ => .refl⟩
  · rw [he]
    exact ⟨hs.apply op, hs.generation_apply hop.ne_reset,
      fun hr => Barrier.isReady_apply hs hr hop.ne_reset, fun w hw hc => hop.spares hs hw hc⟩

theorem FeederStep.slot (h : FeederStep station hub c hub' c') : hub'.slot = hub.slot := by
  cases h with
  | record hc => exact Hub.slot_recordAll
  | _ => rfl

theorem FeederStep.worker (h : FeederStep station hub c hub' c') :
    c'.feeder.worker? = none ∨ c'.feeder.worker? = c.feeder.worker? ∨
      c'.feeder.worker? = some hub.barrier.nextId := by
  cases h with
  | untimed hc | refuse hc | abandon hc | leave hc | record hc | closeQueue hc
  | hangUp hc | joined hc _ | drain hc | dismiss hc | finish hc => exact .inl rfl
  | read hc hr =>
    rcases consider_cases station _ with ⟨e, he⟩ | ⟨channels, he⟩ <;> rw [he] <;> exact .inl rfl
  | join hc => exact .inr (.inr rfl)
  | _ hc => exact .inr (.inl (by rw [hc]; rfl))

theorem SenderStep.barrier (h : SenderStep hub c hub' c') : hub'.barrier = hub.barrier := by
  cases h with
  | fail hc => exact Hub.barrier_recordAll
  | _ => rfl

theorem SenderStep.slot (h : SenderStep hub c hub' c') : hub'.slot = hub.slot := by
  cases h with
  | fail hc => exact Hub.slot_recordAll
  | _ => rfl

theorem SenderStep.feeder (h : SenderStep hub c hub' c') : c'.feeder = c.feeder := by
  cases h <;> rfl

end Connection
end SampleCast
