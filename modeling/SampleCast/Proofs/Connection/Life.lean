import Mathlib.Data.List.Induction
import SampleCast.Proofs.Connection.Flow
import SampleCast.Proofs.Connection.Ledger

/-! The life of a connection.
The two workers of a connection take turns in any order, and at each turn they find the hub as the
producer and the other connections have left it. A life is what becomes of a connection by a list of
such turns. Nothing is said about the hubs that are found, so that a law of all lives holds whatever
the rest of the server does. A life keeps its moves, and the readers below take from them which seat
the connection took and gave up, which blocks it queued and which writes failed. -/

namespace SampleCast

def FeederPhase.left? (p q : FeederPhase) : Option WorkerId :=
  match p, q with
  | .abandoning seat _, .hangingUp _ => some seat.worker
  | .closing seat _ .leaving, .closing _ _ .recording => some seat.worker
  | _, _ => none

def SenderPhase.failed? (p q : SenderPhase) : Option Fault :=
  match p, q with
  | .writing .., .failing f => some f
  | _, _ => none

@[simp] theorem FeederPhase.left?_self (p : FeederPhase) : p.left? p = none := by
  cases p with
  | closing seat reason stage => cases stage <;> rfl
  | _ => rfl

@[simp] theorem SenderPhase.failed?_self (p : SenderPhase) : p.failed? p = none := by
  cases p <;> rfl

theorem SenderPhase.failed?_popping (p : SenderPhase) : p.failed? .popping = none := by
  cases p <;> rfl

theorem filterMap_concat {α β : Type} (f : α → Option β) (xs : List α) (a : α) :
    (xs ++ [a]).filterMap f = xs.filterMap f ++ (f a).toList := by
  rw [List.filterMap_append]
  cases h : f a <;> simp [h]

namespace Connection

inductive Turn
  | feed (hub : Hub) (peer : Acceptance)
  | send (hub : Hub) (peer : Acceptance)
  deriving DecidableEq, Inhabited

def Turn.take (station : Station) (c : Connection) : Turn → Option (Hub × Connection)
  | .feed hub peer => c.feed station hub peer
  | .send hub peer => c.send hub peer

structure Move where
  before : Connection
  turn : Turn
  after : Connection
  deriving DecidableEq, Inhabited

namespace Move

def joined? (m : Move) : Option Seat := m.before.feeder.joined? m.after.feeder

def left? (m : Move) : Option WorkerId := m.before.feeder.left? m.after.feeder

def queued? (m : Move) : Option (Nat × Frame) := m.before.feeder.queued? m.after.feeder

def failed? (m : Move) : Option Fault := m.before.sender.failed? m.after.sender

end Move

structure Life where
  past : List Move := []
  present : Connection
  deriving DecidableEq, Inhabited

namespace Life

def grow (l : Life) (t : Turn) (c : Connection) : Life := ⟨l.past ++ [⟨l.present, t, c⟩], c⟩

def act (station : Station) (l : Life) (t : Turn) : Life :=
  match t.take station l.present with
  | none => l
  | some (_, c) => l.grow t c

def run (station : Station) (incoming : List Reading) (turns : List Turn) : Life :=
  turns.foldl (act station) { present := .accept station incoming }

def joined? (l : Life) : Option Seat := (l.past.filterMap Move.joined?).head?

def left? (l : Life) : Option WorkerId := (l.past.filterMap Move.left?).head?

def queued (l : Life) : List (Nat × Frame) := l.past.filterMap Move.queued?

def frames (l : Life) : List Frame := l.queued.map (·.2)

def failures (l : Life) : List Fault := l.past.filterMap Move.failed?

variable {station : Station} {incoming : List Reading} {l : Life} {t : Turn} {c : Connection}

@[simp] theorem present_grow : (l.grow t c).present = c := rfl

theorem joined?_grow :
    (l.grow t c).joined? = l.joined?.or (l.present.feeder.joined? c.feeder) := by
  rw [joined?, grow, filterMap_concat, List.head?_append, Option.head?_toList]
  rfl

theorem left?_grow : (l.grow t c).left? = l.left?.or (l.present.feeder.left? c.feeder) := by
  rw [left?, grow, filterMap_concat, List.head?_append, Option.head?_toList]
  rfl

theorem queued_grow :
    (l.grow t c).queued = l.queued ++ (l.present.feeder.queued? c.feeder).toList :=
  filterMap_concat _ _ _

theorem frames_grow :
    (l.grow t c).frames =
      l.frames ++ ((l.present.feeder.queued? c.feeder).map (·.2)).toList := by
  rw [frames, queued_grow, List.map_append, ← Option.toList_map]
  rfl

theorem failures_grow :
    (l.grow t c).failures = l.failures ++ (l.present.sender.failed? c.sender).toList :=
  filterMap_concat _ _ _

theorem run_concat (turns : List Turn) (t : Turn) :
    run station incoming (turns ++ [t]) = (run station incoming turns).act station t := by
  rw [run, List.foldl_append]
  rfl

theorem act_of_take {hub : Hub} (h : t.take station l.present = some (hub, c)) :
    l.act station t = l.grow t c := by
  rw [act, h]

/-- What holds when a connection is accepted and is kept by every step of either worker, whatever
hub it finds, holds throughout every life. -/
theorem run_induction {P : Life → Prop} (start : P { present := .accept station incoming })
    (feed : ∀ l hub peer hub' c, P l → FeederStep station hub l.present hub' c →
      P (l.grow (.feed hub peer) c))
    (send : ∀ l hub peer hub' c, P l → SenderStep hub l.present hub' c →
      P (l.grow (.send hub peer) c))
    (turns : List Turn) : P (run station incoming turns) := by
  induction turns using List.reverseRecOn with
  | nil => exact start
  | append_singleton turns t ih =>
    rw [run_concat, act]
    cases ht : t.take station (run station incoming turns).present with
    | none => exact ih
    | some p =>
      cases t with
      | feed hub peer => exact feed _ hub peer p.1 p.2 ih (feederStep_of_feed ht)
      | send hub peer => exact send _ hub peer p.1 p.2 ih (senderStep_of_send ht)

end Life

/-- A feeder has a worker from its joining, whose seat is `joined`, to its leaving, which is `left`.
It serves only a client that has joined. -/
structure Membership (joined : Option Seat) (left : Option WorkerId) (p : FeederPhase) : Prop where
  unjoined : p.IsUnjoined → joined = none ∧ left = none
  present : ∀ w, p.worker? = some w → joined.map (·.worker) = some w ∧ left = none
  gone : ¬ p.IsUnjoined → p.worker? = none → left = joined.map (·.worker)
  serving : p.IsServing → joined ≠ none

variable {station : Station} {hub hub' : Hub} {c c' : Connection} {joined : Option Seat}
  {left : Option WorkerId} {p q : FeederPhase} {w : WorkerId}

namespace Membership

theorem reading : Membership none none .reading :=
  ⟨fun _ => ⟨rfl, rfl⟩, nofun, fun h => absurd trivial h, False.elim⟩

theorem keep (h : Membership joined left p) (hp : ¬ p.IsUnjoined) (hq : ¬ q.IsUnjoined)
    (hw : q.worker? = p.worker?) (hs : q.IsServing → joined ≠ none) : Membership joined left q := by
  refine ⟨fun hu => absurd hu hq, ?_, ?_, hs⟩
  · rw [hw]
    exact h.present
  · rw [hw]
    exact fun _ => h.gone hp

theorem outside (h : Membership joined left p) (hp : p.IsUnjoined) (hw : q.worker? = none)
    (hs : ¬ q.IsServing) : Membership joined left q := by
  obtain ⟨rfl, rfl⟩ := h.unjoined hp
  refine ⟨fun _ => ⟨rfl, rfl⟩, ?_, fun _ _ => rfl, fun h => absurd h hs⟩
  rw [hw]
  exact nofun

theorem joined_of_worker? (h : Membership joined left p) (hw : p.worker? = some w) :
    joined ≠ none := by
  intro hn
  have hj := (h.present w hw).1
  rw [hn] at hj
  cases hj

theorem worker?_eq_some_iff (h : Membership joined left p) :
    p.worker? = some w ↔ joined.map (·.worker) = some w ∧ left = none := by
  constructor
  · exact h.present w
  · intro hw
    obtain ⟨hj, hl⟩ := hw
    cases hp : p.worker? with
    | some v => rw [← hj, (h.present v hp).1]
    | none =>
      by_cases hu : p.IsUnjoined
      · rw [(h.unjoined hu).1] at hj
        cases hj
      · rw [← h.gone hu hp, hl] at hj
        cases hj

end Membership

theorem FeederStep.failed? (h : FeederStep station hub c hub' c') :
    c.sender.failed? c'.sender = none := by
  cases h with
  | begin hc => exact SenderPhase.failed?_popping _
  | _ => exact SenderPhase.failed?_self _

theorem FeederStep.membership (h : FeederStep station hub c hub' c')
    (hm : Membership joined left c.feeder) :
    Membership (joined.or (c.feeder.joined? c'.feeder)) (left.or (c.feeder.left? c'.feeder))
      c'.feeder := by
  have quiet : c.feeder.joined? c'.feeder = none → c.feeder.left? c'.feeder = none →
      Membership joined left c'.feeder →
      Membership (joined.or (c.feeder.joined? c'.feeder)) (left.or (c.feeder.left? c'.feeder))
        c'.feeder := by
    intro hj hl hm'
    rwa [hj, hl, Option.or_none, Option.or_none]
  cases h with
  | untimed hc | refuse hc =>
    rw [hc] at hm
    exact quiet (by rw [hc]; rfl) (by rw [hc]; rfl) (hm.outside trivial rfl id)
  | read hc hr =>
    rw [hc] at hm
    refine quiet (by rw [hc]; rfl) (by rw [hc]; rfl) ?_
    rcases consider_cases station _ with ⟨e, he⟩ | ⟨channels, he⟩ <;> rw [he] <;>
      exact hm.outside trivial rfl id
  | join hc =>
    rw [hc] at hm ⊢
    obtain ⟨rfl, rfl⟩ := hm.unjoined trivial
    exact ⟨False.elim, fun w hw => ⟨hw, rfl⟩, nofun, False.elim⟩
  | abandon hc | leave hc =>
    rw [hc] at hm ⊢
    obtain ⟨hj, rfl⟩ := hm.present _ rfl
    have hsome := hm.joined_of_worker? rfl
    rw [show FeederPhase.joined? _ _ = none from rfl, Option.or_none]
    refine ⟨False.elim, nofun, ?_, fun _ => hsome⟩
    intro _ _
    rw [hj]
    rfl
  | begin hc | nextPart hc | reply hc | replyBroken hc =>
    rw [hc] at hm
    exact quiet (by rw [hc]; rfl) (by rw [hc]; rfl)
      (hm.keep id id rfl fun _ => hm.joined_of_worker? rfl)
  | linkUp hc _ | linkDown hc _ | advanced hc _ | timedOut hc _ | stopped hc _ | copy hc _
  | stale hc _ | queue hc _ | overflow hc _ | acknowledge hc _ | violate hc _ | record hc
  | closeQueue hc | hangUp hc | joined hc _ | drain hc =>
    rw [hc] at hm
    exact quiet (by rw [hc]; rfl) (by rw [hc]; rfl)
      (hm.keep id id rfl fun _ => hm.serving trivial)
  | dismiss hc =>
    rw [hc] at hm
    exact quiet (by rw [hc]; rfl) (by rw [hc]; rfl) (hm.keep id id rfl False.elim)
  | @finish o hc =>
    rw [hc] at hm
    refine quiet (by rw [hc]; rfl) (by rw [hc]; rfl) (hm.keep id id rfl fun hs => hm.serving ?_)
    cases o with
    | refused e => exact hs
    | served report => exact hs

namespace Life

abbrev IsMember (l : Life) : Prop := Membership l.joined? l.left? l.present.feeder

variable {l : Life} {t : Turn}

theorem IsMember.feed (hm : l.IsMember) (h : FeederStep station hub l.present hub' c) :
    (l.grow t c).IsMember := by
  rw [IsMember, joined?_grow, left?_grow]
  exact h.membership hm

theorem IsMember.send (hm : l.IsMember) (h : SenderStep hub l.present hub' c) :
    (l.grow t c).IsMember := by
  rw [IsMember, joined?_grow, left?_grow, present_grow, h.feeder, FeederPhase.joined?_self,
    FeederPhase.left?_self, Option.or_none, Option.or_none]
  exact hm

theorem membership (station : Station) (incoming : List Reading) (turns : List Turn) :
    (run station incoming turns).IsMember :=
  run_induction (P := IsMember) .reading (fun _ _ _ _ _ hm h => hm.feed h)
    (fun _ _ _ _ _ hm h => hm.send h) turns

end Life

end Connection
end SampleCast
