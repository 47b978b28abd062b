import Mathlib.Data.List.Induction
import SampleCast.Proofs.Broadcast.Steps
import SampleCast.Proofs.Connection.Place

/-! The course of a server.
A schedule is any list of actions. An action that cannot be made when its turn comes is passed over,
so that schedules stand for all interleavings of the workers, with clients, faults and the call to
stop at any moment. A course keeps the moments of its past, each with the server before and after
it, and the readers below take from them what the server has published and what each connection has
joined and queued. -/

namespace SampleCast

structure Moment (σ : Type) where
  before : Broadcast σ
  action : Broadcast.Action
  after : Broadcast σ

structure Course (σ : Type) where
  past : List (Moment σ) := []
  present : Broadcast σ

variable {σ : Type}

def Broadcast.feeder? (b : Broadcast σ) (i : Nat) : Option FeederPhase :=
  (b.connections[i]?).map (·.feeder)

namespace Moment

def published? (m : Moment σ) : Option Slot :=
  match m.before.producer.phase, m.after.producer.phase with
  | .publishing _, .opening .. => some m.after.hub.slot
  | _, _ => none

def joined? (i : Nat) (m : Moment σ) : Option Seat := do
  let p ← m.before.feeder? i
  let q ← m.after.feeder? i
  p.joined? q

def queued? (i : Nat) (m : Moment σ) : Option (Nat × Frame) := do
  let p ← m.before.feeder? i
  let q ← m.after.feeder? i
  p.queued? q

end Moment

namespace Course

variable {source : SampleSource σ} {station : Station} {s : σ}

def act (source : SampleSource σ) (station : Station) (r : Course σ) (a : Broadcast.Action) :
    Course σ :=
  match r.present.step source station a with
  | none => r
  | some b => ⟨r.past ++ [⟨r.present, a, b⟩], b⟩

def run (source : SampleSource σ) (station : Station) (s : σ) (schedule : List Broadcast.Action) :
    Course σ :=
  schedule.foldl (act source station) { present := .start station s }

def published (r : Course σ) : List Slot := r.past.filterMap Moment.published?

def block? (r : Course σ) (g : Nat) : Option Frame :=
  (r.published.find? (·.generation = g)).map (·.frame)

def joined? (r : Course σ) (i : Nat) : Option Seat := (r.past.filterMap (Moment.joined? i)).head?

def queued (r : Course σ) (i : Nat) : List (Nat × Frame) := r.past.filterMap (Moment.queued? i)

variable {past : List (Moment σ)} {m : Moment σ} {b : Broadcast σ} {i : Nat}

theorem published_concat :
    published ⟨past ++ [m], b⟩ = published ⟨past, m.before⟩ ++ m.published?.toList := by
  cases h : m.published? <;> simp [published, h]

theorem joined?_concat :
    joined? ⟨past ++ [m], b⟩ i = (joined? ⟨past, m.before⟩ i).or (m.joined? i) := by
  cases h : m.joined? i <;> simp [joined?, h]

theorem queued_concat :
    queued ⟨past ++ [m], b⟩ i = queued ⟨past, m.before⟩ i ++ (m.queued? i).toList := by
  cases h : m.queued? i <;> simp [queued, h]

theorem block?_concat {g : Nat} :
    block? ⟨past ++ [m], b⟩ g =
      (block? ⟨past, m.before⟩ g).or
        ((m.published?.toList.find? (·.generation = g)).map (·.frame)) := by
  rw [block?, block?, published_concat, List.find?_append, Option.map_or]

theorem run_concat (schedule : List Broadcast.Action) (a : Broadcast.Action) :
    run source station s (schedule ++ [a]) =
      (run source station s schedule).act source station a := by
  rw [run, List.foldl_append]
  rfl

/-- What holds at the start and is kept by every action holds throughout every course. -/
theorem act_induction {P : Course σ → Prop} (start : P { present := .start station s })
    (step : ∀ r a b, P r → r.present.step source station a = some b →
      P ⟨r.past ++ [⟨r.present, a, b⟩], b⟩) (schedule : List Broadcast.Action) :
    P (run source station s schedule) := by
  induction schedule using List.reverseRecOn with
  | nil => exact start
  | append_singleton schedule a ih =>
    rw [run_concat, act]
    cases hb : (run source station s schedule).present.step source station a with
    | none => exact ih
    | some b => exact step _ a b ih hb

theorem run_induction {P : Course σ → Prop} (start : P { present := .start station s })
    (step : ∀ r a b, P r → Broadcast.Step source station r.present b →
      P ⟨r.past ++ [⟨r.present, a, b⟩], b⟩) (schedule : List Broadcast.Action) :
    P (run source station s schedule) :=
  act_induction start (fun r a b h hb => step r a b h (Broadcast.step_of_eq_some hb)) schedule

end Course
end SampleCast
