import SampleCast.Proofs.Connection.Agreement
import SampleCast.Proofs.Connection.Log

/-! What a connection has in store.
What was queued and not taken by the sender is in the queue, and nobody closes the queue before the
feeder has left the barrier. So a push is refused only for want of room. `Stock` is the invariant
that says so, beside what the feeder has acknowledged, and `Refused` is what it leaves behind of a
push that was refused: the queue was open and full, and neither a block nor an acknowledgment has
come after it. Main statement: `Life.stock`, that the invariant holds throughout every life. -/

namespace SampleCast

def Station.queueRoom (station : Station) : Nat := max station.settings.bufferCapacity.toNat 1

namespace FeederPhase

def acknowledged? (p q : FeederPhase) : Option Nat :=
  match p, q with
  | .acknowledging _ g, .checking _ => some g
  | _, _ => none

def inFlight : FeederPhase → List Nat
  | .acknowledging _ g => [g]
  | _ => []

@[simp] theorem acknowledged?_self (p : FeederPhase) : p.acknowledged? p = none := by
  cases p <;> rfl

theorem quiet_of_reason? {p : FeederPhase} {reason : CloseReason} (hr : p.reason? = some reason)
    (q : FeederPhase) : p.queued? q = none ∧ p.acknowledged? q = none := by
  unfold reason? at hr
  split at hr
  · exact ⟨rfl, rfl⟩
  · exact ⟨rfl, rfl⟩
  · exact ⟨rfl, rfl⟩
  · cases hr

theorem worker?_of_reason? {p : FeederPhase} {reason : CloseReason}
    (hr : p.reason? = some reason) :
    ¬ p.IsUnjoined ∧ (p.worker? = none ∨ ∃ seat, p = .closing seat reason .leaving) := by
  unfold reason? at hr
  split at hr
  · rename_i seat reason' stage
    cases hr
    cases stage with
    | leaving => exact ⟨id, .inr ⟨seat, rfl⟩⟩
    | _ => exact ⟨id, .inl rfl⟩
  · exact ⟨id, .inl rfl⟩
  · exact ⟨id, .inl rfl⟩
  · cases hr

theorem reason?_of_report? {p : FeederPhase} {report : ConnectionReport}
    (h : p.report? = some report) : p.reason? = some report.reason := by
  unfold report? at h
  split at h
  · cases h
    rfl
  · cases h
    rfl
  · cases h

end FeederPhase

namespace Connection

namespace Move

def acknowledged? (m : Move) : Option Nat := m.before.feeder.acknowledged? m.after.feeder

def taken? (m : Move) : Option Frame :=
  match m.before.sender, m.after.sender with
  | .popping, .writing .. => m.before.queue.toList.head?
  | _, _ => none

end Move

variable {station : Station} {hub hub' : Hub} {c c' : Connection} {peer : Acceptance}
  {reason : CloseReason} {g : Nat}

namespace FeederStep

theorem capacity (h : FeederStep station hub c hub' c') : c'.queue.capacity = c.queue.capacity := by
  cases h with
  | @queue seat g frame q hc hq | @overflow seat g frame q hc hq =>
    have hcapacity := Queue.capacity_push (q := c.queue) (a := frame)
    rw [hq] at hcapacity
    exact hcapacity
  | _ => rfl

theorem isSealed (h : FeederStep station hub c hub' c')
    (hs : c.queue.closed = true → c.feeder.IsSealed) :
    c'.queue.closed = true → c'.feeder.IsSealed := by
  cases h with
  | @queue seat g frame q hc hq | @overflow seat g frame q hc hq =>
    have hclosed := Queue.closed_push (q := c.queue) (a := frame)
    rw [hq] at hclosed
    intro hq
    have hsealed := hs (hclosed.symm.trans hq)
    rw [hc] at hsealed
    exact hsealed.elim
  | closeQueue hc | hangUp hc | joined hc _ | drain hc => exact fun _ => trivial
  | @finish o hc =>
    rw [hc] at hs
    cases o <;> exact hs
  | _ hc =>
    intro hq
    have hsealed := hs hq
    rw [hc] at hsealed
    exact hsealed.elim

theorem reason? (h : FeederStep station hub c hub' c') (hr : c.feeder.reason? = some reason) :
    c'.feeder.reason? = some reason := by
  cases h with
  | leave hc | record hc | closeQueue hc | hangUp hc | joined hc _ | drain hc =>
    rw [hc] at hr
    exact hr
  | finish hc =>
    rw [hc] at hr
    rw [FeederPhase.reason?_over]
    exact hr
  | _ hc =>
    rw [hc] at hr
    cases hr

theorem report? (h : FeederStep station hub c hub' c') (hr : c'.feeder.report? = none) :
    c.feeder.report? = none := by
  cases h with
  | finish hc =>
    rw [FeederPhase.report?_over] at hr
    rw [hc]
    exact hr
  | _ hc =>
    rw [hc]
    rfl

/-- As long as no acknowledgment is refused, what was queued is acknowledged or about to be. -/
theorem acknowledged (h : FeederStep station hub c hub' c')
    (hn : ∀ reason, c'.feeder.reason? = some reason → reason.unacknowledged = 0) :
    c.feeder.inFlight ++ ((c.feeder.queued? c'.feeder).map (·.1)).toList =
      (c.feeder.acknowledged? c'.feeder).toList ++ c'.feeder.inFlight := by
  cases h with
  | violate hc _ => exact absurd (hn _ rfl) Nat.one_ne_zero
  | read hc hr =>
    rcases consider_cases station _ with ⟨e, he⟩ | ⟨channels, he⟩ <;> rw [hc, he] <;> rfl
  | _ hc =>
    rw [hc]
    rfl

theorem overflow_cases (h : FeederStep station hub c hub' c')
    (hr : c'.feeder.reason? = some (.overflow g)) :
    c.feeder.reason? = some (.overflow g) ∨
    ∃ seat frame, c.feeder = .queueing seat g frame ∧ c.queue.push frame = (.overflow, c.queue) ∧
      c' = { c with feeder := .closing seat (.overflow g) .leaving } := by
  cases h with
  | overflow hc hq =>
    cases Queue.eq_of_push_overflow hq
    cases hr
    exact .inr ⟨_, _, hc, hq, rfl⟩
  | read hc hp =>
    rcases consider_cases station _ with ⟨e, he⟩ | ⟨channels, he⟩ <;> rw [he] at hr <;> cases hr
  | finish hc =>
    rw [FeederPhase.reason?_over] at hr
    rw [hc]
    exact .inl hr
  | leave hc | record hc | closeQueue hc | hangUp hc | joined hc _ | drain hc =>
    rw [hc]
    exact .inl hr
  | _ => cases hr

theorem taken? (h : FeederStep station hub c hub' c') (t : Turn) :
    Move.taken? ⟨c, t, c'⟩ = none := by
  cases h with
  | begin hc => cases hs : c.sender <;> simp [Move.taken?, hs]
  | _ => cases hs : c.sender <;> simp [Move.taken?, hs]

end FeederStep

namespace SenderStep

theorem capacity (h : SenderStep hub c hub' c') : c'.queue.capacity = c.queue.capacity := by
  cases h with
  | pop hc hq | closed hc hq | empty hc hq =>
    have hcapacity := Queue.capacity_popOrTimeOut (q := c.queue)
    rw [hq] at hcapacity
    exact hcapacity
  | _ => rfl

theorem toList (h : SenderStep hub c hub' c') {items : List Frame} (hi : c.queue.Holds items)
    (t : Turn) : items = (Move.taken? ⟨c, t, c'⟩).toList ++ c'.queue.toList := by
  cases h with
  | pop hc hq =>
    rcases hi.popOrTimeOut with ⟨-, hp⟩ | ⟨f, rest, q, rfl, hp, hrest⟩
    · rw [hp] at hq
      split_ifs at hq <;> cases hq
    · rw [hp] at hq
      cases hq
      simp [Move.taken?, hc, hi.toList, hrest.toList]
  | closed hc hq | empty hc hq =>
    cases hi.eq_of_popOrTimeOut hq nofun
    simp [Move.taken?, hc, hi.toList]
  | _ hc => simp [Move.taken?, hc, hi.toList]

end SenderStep

namespace Life

def taken (l : Life) : List Frame := l.past.filterMap Move.taken?

def acknowledged (l : Life) : List Nat := l.past.filterMap Move.acknowledged?

/-- Move `m` of a life is a push of generation `g` that was refused, and nothing was queued or
acknowledged after it. -/
structure Refused (room : Nat) (l : Life) (g : Nat) (before : List Move) (m : Move)
    (rest : List Move) (seat : Seat) (frame : Frame) : Prop where
  past : l.past = before ++ m :: rest
  found : m.before.feeder = .queueing seat g frame
  left : m.after.feeder = .closing seat (.overflow g) .leaving
  isOpen : m.before.queue.closed = false
  full : m.before.queue.toList.length = room
  worker : l.joined?.map (·.worker) = some seat.worker
  queued : l.queued = before.filterMap Move.queued?
  acknowledged : l.acknowledged = l.queued.map (·.1)
  counted : l.acknowledged.length = seat.acknowledged
  contents : l.frames = before.filterMap Move.taken? ++ m.before.queue.toList

structure Stock (room : Nat) (l : Life) : Prop where
  capacity : l.present.queue.capacity = room
  isSealed : l.present.queue.closed = true → l.present.feeder.IsSealed
  contents : l.present.feeder.report? = none → l.frames = l.taken ++ l.present.queue.toList
  acknowledged : (∀ reason, l.present.feeder.reason? = some reason → reason.unacknowledged = 0) →
    l.queued.map (·.1) = l.acknowledged ++ l.present.feeder.inFlight
  refused : ∀ g, l.present.feeder.reason? = some (.overflow g) →
    ∃ before m rest seat frame, l.Refused room g before m rest seat frame

variable {l : Life} {t : Turn} {room : Nat} {seat : Seat} {frame : Frame}

theorem taken_grow : (l.grow t c).taken = l.taken ++ (Move.taken? ⟨l.present, t, c⟩).toList :=
  filterMap_concat _ _ _

theorem acknowledged_grow :
    (l.grow t c).acknowledged =
      l.acknowledged ++ (l.present.feeder.acknowledged? c.feeder).toList :=
  filterMap_concat _ _ _

theorem quiet_grow (h : l.present.feeder.queued? c.feeder = none ∧
      l.present.feeder.acknowledged? c.feeder = none) :
    (l.grow t c).queued = l.queued ∧ (l.grow t c).frames = l.frames ∧
      (l.grow t c).acknowledged = l.acknowledged := by
  rw [frames, queued_grow, acknowledged_grow, h.1, h.2, Option.toList_none, Option.toList_none,
    List.append_nil, List.append_nil]
  exact ⟨rfl, rfl, rfl⟩

theorem worker_grow (h : l.joined?.map (·.worker) = some seat.worker) :
    (l.grow t c).joined?.map (·.worker) = some seat.worker := by
  obtain ⟨joined, hj, hw⟩ := Option.map_eq_some_iff.mp h
  rw [joined?_grow, hj, Option.some_or, Option.map_some, hw]

theorem Refused.grow {before rest : List Move} {m : Move}
    (h : l.Refused room g before m rest seat frame)
    (hr : l.present.feeder.reason? = some reason) :
    (l.grow t c).Refused room g before m (rest ++ [⟨l.present, t, c⟩]) seat frame := by
  obtain ⟨hqueued, hframes, hacknowledged⟩ :=
    quiet_grow (l := l) (t := t) (FeederPhase.quiet_of_reason? hr c.feeder)
  constructor
  case past => rw [Life.grow, h.past, List.append_assoc, List.cons_append]
  case found => exact h.found
  case left => exact h.left
  case isOpen => exact h.isOpen
  case full => exact h.full
  case worker => exact worker_grow h.worker
  case queued => rw [hqueued, h.queued]
  case acknowledged => rw [hacknowledged, hqueued, h.acknowledged]
  case counted => rw [hacknowledged, h.counted]
  case contents => rw [hframes, h.contents]

/-- The feeder serves a block and has refused none, so that nothing is in its way but the room. -/
structure Ready (room : Nat) (l : Life) (seat : Seat) : Prop where
  isOpen : l.present.queue.closed = false
  holds : l.present.queue.Holds l.present.queue.toList
  capacity : l.present.queue.capacity = room
  worker : l.joined?.map (·.worker) = some seat.worker
  contents : l.frames = l.taken ++ l.present.queue.toList
  acknowledged : l.acknowledged = l.queued.map (·.1)
  counted : l.acknowledged.length = seat.acknowledged

namespace Stock

theorem start (station : Station) (incoming : List Reading) :
    Stock station.queueRoom { present := .accept station incoming } :=
  ⟨rfl, nofun, fun _ => (Queue.holds_ofCapacity station.settings.bufferCapacity.toNat).toList.symm,
    fun _ => rfl, nofun⟩

theorem ready (h : l.Stock room) (hb : l.Balance station) (hm : l.IsMember)
    (hc : l.present.feeder = .queueing seat g frame) : l.Ready room seat := by
  have hacknowledged := h.acknowledged (by rw [hc]; exact nofun)
  have hcredit : l.frames.length = seat.acknowledged := hb.credit _ (by rw [hc]; rfl)
  rw [hc] at hacknowledged
  have hall : l.queued.map (·.1) = l.acknowledged := hacknowledged.trans (List.append_nil _)
  obtain ⟨done, held, items, hparts⟩ := hb.parts
  have hholds : l.present.queue.Holds items := hparts.leaves.holds (by rw [hc]; rfl)
  constructor
  case isOpen =>
    refine Bool.eq_false_iff.mpr fun hclosed => ?_
    have hsealed := h.isSealed hclosed
    rw [hc] at hsealed
    exact hsealed
  case holds => rwa [hholds.toList]
  case capacity => exact h.capacity
  case worker => exact (hm.present seat.worker (by rw [hc]; rfl)).1
  case contents => exact h.contents (by rw [hc]; rfl)
  case acknowledged => exact hall.symm
  case counted => rw [← hall, List.length_map, ← hcredit, frames, List.length_map]

end Stock

namespace Ready

/-- A push is refused if and only if as many frames are queued as the queue has room for. -/
theorem push_eq_overflow_iff (h : l.Ready room seat) (frame : Frame) :
    l.present.queue.push frame = (.overflow, l.present.queue) ↔
      l.present.queue.toList.length = room := by
  have hopen := h.isOpen
  rw [← h.capacity]
  rcases h.holds.push frame with ⟨hclosed | hfull, hp⟩ | ⟨-, hlt, q, hp, -⟩
  · rw [hopen] at hclosed
    cases hclosed
  · exact iff_of_true hp hfull
  · rw [hp]
    exact iff_of_false nofun (Nat.ne_of_lt hlt)

theorem length_le (h : l.Ready room seat) : l.present.queue.toList.length ≤ room :=
  h.capacity ▸ h.holds.length_le

theorem feed_of_room (h : l.Ready room seat) (hc : l.present.feeder = .queueing seat g frame)
    (hlt : l.present.queue.toList.length < room) (station : Station) (hub : Hub)
    (peer : Acceptance) :
    ∃ q, l.present.feed station hub peer =
        some (hub, { l.present with queue := q, feeder := .acknowledging seat g }) ∧
      q.toList = l.present.queue.toList ++ [frame] := by
  rcases h.holds.push frame with ⟨-, hp⟩ | ⟨-, -, q, hp, hq⟩
  · exact absurd ((h.push_eq_overflow_iff frame).mp hp) (Nat.ne_of_lt hlt)
  · exact ⟨q, by simp only [feed, hc, hp], hq.toList⟩

theorem refuse (h : l.Ready room seat) (hc : l.present.feeder = .queueing seat g frame)
    (hq : l.present.queue.push frame = (.overflow, l.present.queue)) :
    let c := { l.present with feeder := .closing seat (.overflow g) .leaving }
    (l.grow t c).Refused room g l.past ⟨l.present, t, c⟩ [] seat frame := by
  intro c
  obtain ⟨hqueued, hframes, hacknowledged⟩ : (l.grow t c).queued = l.queued ∧
      (l.grow t c).frames = l.frames ∧ (l.grow t c).acknowledged = l.acknowledged :=
    quiet_grow (by rw [hc]; exact ⟨rfl, rfl⟩)
  constructor
  case past => rfl
  case found => exact hc
  case left => rfl
  case isOpen => exact h.isOpen
  case full => exact (h.push_eq_overflow_iff frame).mp hq
  case worker => exact worker_grow h.worker
  case queued => exact hqueued
  case acknowledged => rw [hacknowledged, hqueued, h.acknowledged]
  case counted => rw [hacknowledged, h.counted]
  case contents => rw [hframes, h.contents]; rfl

end Ready

namespace Stock

theorem feed (h : l.Stock room) (hb : l.Balance station) (hm : l.IsMember)
    (hs : FeederStep station hub l.present hub' c) : (l.grow (.feed hub peer) c).Stock room := by
  obtain ⟨done, held, items, hparts⟩ := hb.parts
  constructor
  case capacity => exact hs.capacity.trans h.capacity
  case isSealed => exact hs.isSealed h.isSealed
  case contents =>
    intro hr
    have hholds := (hs.parts hb.flow hparts).leaves.holds hr
    have hbefore := hs.report? hr
    rw [present_grow, frames_grow, taken_grow, hs.taken?, Option.toList_none, List.append_nil,
      hholds.toList, h.contents hbefore, (hparts.leaves.holds hbefore).toList, List.append_assoc]
  case acknowledged =>
    intro hn
    have hstep := hs.acknowledged hn
    have hbefore := h.acknowledged fun reason hr => hn reason (hs.reason? hr)
    rw [present_grow, queued_grow, acknowledged_grow, List.map_append, ← Option.toList_map, hbefore,
      List.append_assoc, hstep, List.append_assoc]
  case refused =>
    intro g hr
    rcases hs.overflow_cases hr with hr | ⟨seat, frame, hc, hq, rfl⟩
    · obtain ⟨before, m, rest, seat, frame, hrefused⟩ := h.refused g hr
      exact ⟨before, m, _, seat, frame, hrefused.grow hr⟩
    · exact ⟨l.past, _, [], seat, frame, (h.ready hb hm hc).refuse hc hq⟩

theorem send (h : l.Stock room) (hb : l.Balance station)
    (hs : SenderStep hub l.present hub' c) : (l.grow (.send hub peer) c).Stock room := by
  obtain ⟨done, held, items, hparts⟩ := hb.parts
  have hquiet : l.present.feeder.queued? c.feeder = none ∧
      l.present.feeder.acknowledged? c.feeder = none := by
    rw [hs.feeder]
    exact ⟨FeederPhase.queued?_self _, FeederPhase.acknowledged?_self _⟩
  obtain ⟨hqueued, hframes, hacknowledged⟩ :=
    quiet_grow (l := l) (t := .send hub peer) hquiet
  constructor
  case capacity => exact hs.capacity.trans h.capacity
  case isSealed =>
    rw [present_grow, hs.feeder, hs.closed_queue]
    exact h.isSealed
  case contents =>
    intro hr
    rw [present_grow, hs.feeder] at hr
    have hholds := hparts.leaves.holds hr
    rw [present_grow, hframes, taken_grow, h.contents hr, hholds.toList, List.append_assoc,
      ← hs.toList hholds]
  case acknowledged =>
    rw [present_grow, hs.feeder, hqueued, hacknowledged]
    exact h.acknowledged
  case refused =>
    intro g hr
    rw [present_grow, hs.feeder] at hr
    obtain ⟨before, m, rest, seat, frame, hrefused⟩ := h.refused g hr
    exact ⟨before, m, _, seat, frame, hrefused.grow hr⟩

end Stock

theorem stock (station : Station) (incoming : List Reading) (turns : List Turn) :
    (run station incoming turns).Stock station.queueRoom := by
  refine (run_induction
    (P := fun l => (l.IsMember ∧ l.Balance station) ∧ l.Stock station.queueRoom)
    ⟨⟨.reading, .start station incoming⟩, .start station incoming⟩ ?_ ?_ turns).2
  · rintro l hub peer hub' c ⟨⟨hm, hb⟩, h⟩ hs
    exact ⟨⟨hm.feed hs, hb.feed hs⟩, h.feed hb hm hs⟩
  · rintro l hub peer hub' c ⟨⟨hm, hb⟩, h⟩ hs
    exact ⟨⟨hm.send hs, hb.send hs⟩, h.send hb hs⟩

end Life
end Connection
end SampleCast
