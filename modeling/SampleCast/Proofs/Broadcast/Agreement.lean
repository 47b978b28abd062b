import SampleCast.Proofs.Broadcast.Course
import SampleCast.Proofs.Connection.Agreement

/-! The agreement of the slot and the barrier.
The producer puts a block into the slot before it opens its generation, so that for a while the slot
is one ahead of the barrier. It does so only while nobody owes, and whoever serves a block owes it,
so nobody serves one then. `Agreement` is the invariant that says so. Main statement: `run_agrees`,
that in every course every feeder is told of the generation after the one it has seen last, finds
its block in the slot for as long as it serves it, and has its acknowledgment accepted. -/

namespace SampleCast

def ProducerPhase.IsTold : ProducerPhase → Prop
  | .acquiring | .publishing _ | .opening .. => True
  | .awaiting | .failing _ | .ended _ => False

def ProducerPhase.lead : ProducerPhase → Nat
  | .opening .. => 1
  | _ => 0

variable {σ : Type} {source : SampleSource σ} {station : Station} {s : σ}

theorem ProducerPhase.lead_eq_zero {p : ProducerPhase} (h : ¬ p.IsTold) : p.lead = 0 := by
  cases p with
  | opening => exact absurd trivial h
  | _ => rfl

theorem Producer.lead_judge {r : Except SourceError UInt32} : (judge station r).lead = 0 := by
  unfold judge
  cases r with
  | error e => rfl
  | ok points =>
    simp only
    split_ifs <;> rfl

theorem Slot.copy_of_serves {slot : Slot} {channels : List UInt32}
    (hs : station.Serves channels) (hc : slot.frame.channelCount = station.channelCount) :
    ∃ frame, slot.copy channels = some (slot.generation, frame) := by
  cases hf : slot.frame.select channels with
  | none =>
    obtain ⟨c, hmem, hle⟩ := Frame.select_eq_none_iff.mp hf
    rw [hc] at hle
    exact absurd (hs c hmem) (UInt32.not_lt.mpr hle)
  | some frame => exact ⟨frame, by rw [copy, hf, Option.map_some]⟩

namespace Broadcast

structure Agreement (station : Station) (b : Broadcast σ) : Prop where
  sound : b.hub.barrier.Sound
  ready : b.producer.phase.IsTold → b.hub.barrier.isReady = true
  slot : b.hub.slot.generation = b.hub.barrier.generation + b.producer.phase.lead
  complete : 0 < b.hub.slot.generation → b.hub.slot.frame.channelCount = station.channelCount
  feeders : ∀ i p, b.feeder? i = some p → p.Agrees station b.hub.barrier
  apart : ∀ i j p q w, b.feeder? i = some p → b.feeder? j = some q →
    p.worker? = some w → q.worker? = some w → i = j

variable {b b' : Broadcast σ} {i j : Nat} {p : FeederPhase} {c c' : Connection} {hub : Hub}

theorem feeder?_of_getElem? (h : b.connections[i]? = some c) : b.feeder? i = some c.feeder := by
  rw [feeder?, h, Option.map_some]

theorem feeder?_set (h : b.connections[i]? = some c) :
    feeder? { b with hub, connections := b.connections.set i c' } j =
      if i = j then some c'.feeder else b.feeder? j := by
  have hi : i < b.connections.length := (List.getElem?_eq_some_iff.mp h).1
  unfold feeder?
  rw [List.getElem?_set, if_pos hi]
  split_ifs <;> rfl

theorem feeder?_set_of_feeder (h : b.connections[i]? = some c) (hf : c'.feeder = c.feeder) :
    feeder? { b with hub, connections := b.connections.set i c' } j = b.feeder? j := by
  rw [feeder?_set h, hf]
  split_ifs with hj
  · rw [← hj, feeder?_of_getElem? h]
  · rfl

theorem feeder?_arrive {a : AcceptorPhase} {incoming : List Reading}
    (h : feeder? { b with
      hub, acceptor := a, connections := b.connections ++ [.accept station incoming] } i = some p) :
    b.feeder? i = some p ∨ p = .reading := by
  unfold feeder? at h
  rw [List.getElem?_append] at h
  split_ifs at h with hi
  · exact .inl h
  · cases hn : i - b.connections.length with
    | zero =>
      simp only [hn, List.getElem?_cons_zero, Option.map_some, Option.some.injEq] at h
      exact .inr h.symm
    | succ n => simp [hn] at h

namespace Agreement

theorem start : Agreement station (start station s) :=
  ⟨Barrier.sound_empty, False.elim, rfl, fun h => absurd h (Nat.lt_irrefl 0),
    by simp [feeder?, Broadcast.start], by simp [feeder?, Broadcast.start]⟩

/-- Whoever serves a block owes its generation, and so the block is in the slot. -/
theorem inHand (h : Agreement station b) {seat : Seat} {g : Nat} (hp : b.feeder? i = some p)
    (hi : p.inHand? = some (seat, g)) :
    g = seat.lastSeen + 1 ∧ b.hub.slot.generation = g ∧
      ∃ frame, b.hub.slot.copy seat.channels = some (g, frame) := by
  have ha := h.feeders i p hp
  obtain ⟨hw, hg⟩ := ha.owes seat g hi
  obtain ⟨hstep, hserved⟩ := ha.seated seat (FeederPhase.seat?_of_inHand? hi)
  have htold : ¬ b.producer.phase.IsTold := by
    intro ht
    rw [Barrier.isReady_iff_pending.mp (h.ready ht)] at hw
    exact List.not_mem_nil hw
  have hslot : b.hub.slot.generation = g := by
    rw [h.slot, ProducerPhase.lead_eq_zero htold, Nat.add_zero, hg]
  have hsucc : g = seat.lastSeen + 1 := hstep.eq_succ hw hg
  refine ⟨hsucc, hslot, ?_⟩
  rw [← hslot]
  exact Slot.copy_of_serves hserved (h.complete (by omega))

theorem spared (h : Agreement station b) {q : Producer σ} (hs : hub.barrier.Sound)
    (hb : ∀ w, Barrier.Spares w b.hub.barrier hub.barrier) (hslot : hub.slot = b.hub.slot)
    (hr : q.phase.IsTold → hub.barrier.isReady = true)
    (hl : q.phase.lead = b.producer.phase.lead) :
    Agreement station { b with hub, producer := q } := by
  constructor
  case sound => exact hs
  case ready => exact hr
  case slot =>
    change hub.slot.generation = hub.barrier.generation + q.phase.lead
    rw [hslot, (hb 0).generation, hl]
    exact h.slot
  case complete =>
    change 0 < hub.slot.generation → hub.slot.frame.channelCount = station.channelCount
    rw [hslot]
    exact h.complete
  case feeders =>
    intro i p hp
    exact (h.feeders i p hp).spared (fun w _ => hb w)
  case apart => exact h.apart

theorem stop (h : Agreement station b) : Agreement station { b with hub := b.hub.stop } :=
  h.spared (h.sound.apply .shutdown) (fun _ => Barrier.spares_shutdown) rfl h.ready rfl

theorem onProducer (h : Agreement station b) {q : Producer σ}
    (hr : q.phase.IsTold → b.hub.barrier.isReady = true)
    (hl : q.phase.lead = b.producer.phase.lead) :
    Agreement station { b with producer := q } :=
  h.spared h.sound (fun _ => .refl) rfl hr hl

theorem publish (h : Agreement station b) {points : UInt32}
    (hp : b.producer.phase = .publishing points) {timestamp : UInt64} {frame : Frame}
    (hf : frame.channelCount = station.channelCount) :
    Agreement station
      { b with
        hub := b.hub.publish (b.hub.barrier.generation + 1) frame
        producer := { b.producer with phase := .opening points timestamp } } := by
  constructor
  case sound => exact h.sound
  case ready =>
    intro _
    exact h.ready (by rw [hp]; trivial)
  case slot => rfl
  case complete => exact fun _ => hf
  case feeders => exact h.feeders
  case apart => exact h.apart

theorem advance (h : Agreement station b) {points : UInt32} {timestamp : UInt64}
    (hp : b.producer.phase = .opening points timestamp) {stats : ProducerStats} :
    Agreement station
      { b with
        hub := b.hub.advance.record .published
        producer := { b.producer with stats, phase := .awaiting } } := by
  have hready : b.hub.barrier.isReady = true := h.ready (by rw [hp]; trivial)
  have hslot : b.hub.slot.generation = b.hub.barrier.generation + 1 := by
    rw [h.slot, hp]
    rfl
  constructor
  case sound => exact h.sound.reset
  case ready => exact False.elim
  case slot => exact hslot
  case complete => exact h.complete
  case feeders =>
    intro i p hi
    exact (h.feeders i p hi).reset hready
  case apart => exact h.apart

theorem produce (h : Agreement station b) {q : Producer σ}
    (hs : Producer.Step source station b.hub b.producer hub q) :
    Agreement station { b with hub, producer := q } := by
  cases hs with
  | halt hp hr => exact h.onProducer False.elim (by rw [hp]; rfl)
  | ready hp hr =>
    exact h.onProducer (fun _ => Barrier.isReady_of_readiness hr) (by rw [hp]; rfl)
  | @acquire d s hp hd =>
    have hready : b.hub.barrier.isReady = true := h.ready (by rw [hp]; trivial)
    have hlead : (b.producer.receive station d s).phase.lead = b.producer.phase.lead := by
      rw [hp]
      exact Producer.lead_judge
    split_ifs
    · exact h.stop.onProducer (fun _ => hready) hlead
    · exact h.onProducer (fun _ => hready) hlead
  | publish hp => exact h.publish hp rfl
  | advance hp => exact h.advance hp
  | fail hp => exact h.stop.onProducer False.elim (by rw [hp]; rfl)

theorem arrive (h : Agreement station b) {a : AcceptorPhase} {incoming : List Reading} :
    Agreement station
      { b with
        hub := b.hub.record .accepted
        acceptor := a
        connections := b.connections ++ [.accept station incoming] } := by
  have hseat : ∀ {p w}, p = FeederPhase.reading → p.worker? ≠ some w := by
    intro p w hp
    rw [hp]
    exact nofun
  constructor
  case sound => exact h.sound
  case ready => exact h.ready
  case slot => exact h.slot
  case complete => exact h.complete
  case feeders =>
    intro i p hi
    rcases feeder?_arrive hi with hi | rfl
    · exact h.feeders i p hi
    · exact .unseated rfl (by simp) (by simp [FeederPhase.reason?])
  case apart =>
    intro i j p q w hi hj hp hq
    rcases feeder?_arrive hi with hi | hi
    · rcases feeder?_arrive hj with hj | hj
      · exact h.apart i j p q w hi hj hp hq
      · exact absurd hq (hseat hj)
    · exact absurd hp (hseat hi)

theorem alive (h : Agreement station b) {w : WorkerId} (hi : b.feeder? i = some p)
    (hw : p.worker? = some w) : w ∈ b.hub.barrier.alive := by
  obtain ⟨seat, hs, rfl⟩ := Option.map_eq_some_iff.mp hw
  exact ((h.feeders i p hi).seated seat hs).1.alive

theorem feed (h : Agreement station b) (hc : b.connections[i]? = some c)
    (hf : Connection.FeederStep station b.hub c hub c') :
    Agreement station { b with hub, connections := b.connections.set i c' } := by
  have hi : b.feeder? i = some c.feeder := feeder?_of_getElem? hc
  have hu := hf.undisturbed h.sound
  -- Only connection `i` has the worker that it has now or that it gets.
  have hworker : ∀ {w j q}, i ≠ j → c'.feeder.worker? = some w → b.feeder? j = some q →
      q.worker? ≠ some w := by
    intro w j q hij hw hj hq
    rcases hf.worker with hn | hn | hn
    · rw [hn] at hw
      cases hw
    · exact hij (h.apart i j _ q w hi hj (hn ▸ hw) hq)
    · rw [hn] at hw
      cases hw
      exact Nat.lt_irrefl _ (h.sound.lt_nextId (h.alive hj hq))
  constructor
  case sound => exact hu.sound
  case ready => exact fun ht => hu.ready (h.ready ht)
  case slot =>
    change hub.slot.generation = hub.barrier.generation + b.producer.phase.lead
    rw [hf.slot, hu.generation]
    exact h.slot
  case complete => exact hf.slot ▸ h.complete
  case feeders =>
    intro j q hj
    rw [feeder?_set hc] at hj
    split_ifs at hj with hij
    · cases hj
      refine hf.agrees h.sound (h.feeders i _ hi) ?_
      intro seat g hcopy
      have hhand : c.feeder.inHand? = some (seat, g) := by
        rw [hcopy]
        rfl
      exact (h.inHand hi hhand).2.2
    · refine (h.feeders j q hj).spared ?_
      intro w hw
      refine hu.spares w (h.alive hj hw) ?_
      intro hcw
      exact hij (h.apart i j _ q w hi hj hcw hw)
  case apart =>
    intro j k p q w hj hk hp hq
    rw [feeder?_set hc] at hj hk
    split_ifs at hj hk with hij hik hik
    · exact hij.symm.trans hik
    · cases hj
      exact absurd hq (hworker hik hp hk)
    · cases hk
      exact absurd hp (hworker hij hq hj)
    · exact h.apart j k p q w hj hk hp hq

theorem send (h : Agreement station b) (hc : b.connections[i]? = some c)
    (hs : Connection.SenderStep b.hub c hub c') :
    Agreement station { b with hub, connections := b.connections.set i c' } := by
  have hfeeder : ∀ j, feeder? { b with hub, connections := b.connections.set i c' } j =
      b.feeder? j := fun j => feeder?_set_of_feeder hc hs.feeder
  constructor
  case sound => exact hs.barrier ▸ h.sound
  case ready => exact hs.barrier ▸ h.ready
  case slot => exact hs.barrier ▸ hs.slot ▸ h.slot
  case complete => exact hs.slot ▸ h.complete
  case feeders =>
    intro j p hj
    rw [hfeeder] at hj
    exact hs.barrier ▸ h.feeders j p hj
  case apart =>
    intro j k p q w hj hk
    rw [hfeeder] at hj hk
    exact h.apart j k p q w hj hk

theorem step (h : Agreement station b) (hs : Step source station b b') :
    Agreement station b' := by
  cases hs with
  | produce hp => exact h.produce hp
  | look => exact ⟨h.sound, h.ready, h.slot, h.complete, h.feeders, h.apart⟩
  | arrive => exact h.arrive
  | feed hc hf => exact h.feed hc hf
  | send hc hs => exact h.send hc hs
  | stop => exact h.stop

theorem run (schedule : List Action) :
    Agreement station (Course.run source station s schedule).present :=
  Course.run_induction (P := fun r => Agreement station r.present) start
    (fun _ _ _ h hs => h.step hs) schedule

end Agreement

theorem run_agrees (source : SampleSource σ) (station : Station) (s : σ) (schedule : List Action) :
    let b := (Course.run source station s schedule).present
    ∀ i p, b.feeder? i = some p →
      (∀ reason, p.reason? = some reason → reason.IsOrderly) ∧
      (∀ seat g, p = .waiting seat → b.hub.barrier.advanceOrTimeOut seat.lastSeen = .advanced g →
        g = seat.lastSeen + 1) ∧
      (∀ seat g, p.inHand? = some (seat, g) →
        g = seat.lastSeen + 1 ∧ b.hub.slot.generation = g ∧
          ∃ frame, b.hub.slot.copy seat.channels = some (g, frame)) ∧
      (∀ seat g, p = .acknowledging seat g →
        (b.hub.barrier.acknowledge seat.worker g).1 = .ok ()) := by
  intro b i p hp
  have h : Agreement station b := .run schedule
  have ha := h.feeders i p hp
  refine ⟨ha.orderly, ?_, fun _ _ hi => h.inHand hp hi, ?_⟩
  · intro seat g hw hg
    have hseat : p.seat? = some seat := by
      rw [hw]
      rfl
    exact ((ha.seated seat hseat).1.advanced hg).2.2
  · intro seat g hw
    have hhand : p.inHand? = some (seat, g) := by
      rw [hw]
      rfl
    obtain ⟨hpend, rfl⟩ := ha.owes seat g hhand
    rw [h.sound.acknowledge_of_pending hpend]

def pulse : SampleSource Unit where
  channelCount := 2
  rate := 1000
  acquire _ _ := (⟨.ok 1, [7, 8], [true, false], false⟩, ())

def pulseStation : Station := ⟨{ pointsPerChannel := 1 }, 2, 1000⟩

def firstBlock : List Action :=
  [.look, .arrive [.chunk [0, 0, 0, 1, 0, 0, 0, 1]]] ++ List.replicate 8 (.feed 0 (.upTo 17)) ++
    List.replicate 4 .produce ++ [.feed 0 (.upTo 17)]

theorem run_agrees_firstBlock :
    let b := (Course.run pulse pulseStation () firstBlock).present
    b.feeder? 0 = some (.copying ⟨1, [1], 0, 0⟩ 1) ∧
      ∃ frame, b.hub.slot.copy [1] = some (1, frame) := by
  have hp : (Course.run pulse pulseStation () firstBlock).present.feeder? 0 =
      some (.copying ⟨1, [1], 0, 0⟩ 1) := by decide
  have h := run_agrees pulse pulseStation () firstBlock 0 _ hp
  exact ⟨hp, (h.2.2.1 ⟨1, [1], 0, 0⟩ 1 rfl).2.2⟩

end Broadcast
end SampleCast
