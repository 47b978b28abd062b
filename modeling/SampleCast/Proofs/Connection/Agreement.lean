import SampleCast.Proofs.Barrier.Pacing
import SampleCast.Proofs.Connection.Place

/-! The agreement of a feeder with the barrier.
A feeder knows the generation that its worker has seen last, and while it serves a block, the
generation of that block. `Agrees` says that what it knows is what the barrier holds, and that it
closes neither because the barrier refused an acknowledgment nor because the block was another than
the one announced. Main statements: every action of the feeder keeps the agreement if the slot holds
the block that it copies, and neither another connection nor the next generation breaks it. -/

namespace SampleCast

/-- The connection is not closed because the slot and the barrier were at odds. -/
def CloseReason.IsOrderly : CloseReason → Prop
  | .violated _ | .stale .. => False
  | .shutdown | .overflow _ | .linkDown => True

/-- A worker that owes is one generation behind, and any other is not behind. -/
structure Seat.InStep (b : Barrier) (seat : Seat) : Prop where
  alive : seat.worker ∈ b.alive
  paced : if seat.worker ∈ b.pending then seat.lastSeen + 1 = b.generation
    else seat.lastSeen = b.generation

def Station.Serves (station : Station) (channels : List UInt32) : Prop :=
  ∀ c ∈ channels, c < station.channelCount

namespace FeederPhase

def reason? : FeederPhase → Option CloseReason
  | .closing _ reason _ => some reason
  | .returned (.served report) | .over (.served report) => some report.reason
  | _ => none

theorem reason?_over {o : ConnectionOutcome} : reason? (.over o) = reason? (.returned o) := by
  cases o <;> rfl

/-- The generation that was announced to the feeder and that it has neither acknowledged nor left
unserved. -/
def inHand? : FeederPhase → Option (Seat × Nat)
  | .copying seat g | .queueing seat g _ | .acknowledging seat g
  | .closing seat (.overflow g) .leaving => some (seat, g)
  | _ => none

structure Agrees (station : Station) (b : Barrier) (p : FeederPhase) : Prop where
  requested : ∀ channels, p = .joining channels → station.Serves channels
  seated : ∀ seat, p.seat? = some seat → seat.InStep b ∧ station.Serves seat.channels
  owes : ∀ seat g, p.inHand? = some (seat, g) → seat.worker ∈ b.pending ∧ g = b.generation
  orderly : ∀ reason, p.reason? = some reason → reason.IsOrderly

theorem seat?_of_inHand? {p : FeederPhase} {seat : Seat} {g : Nat}
    (h : p.inHand? = some (seat, g)) : p.seat? = some seat := by
  cases p with
  | closing s reason stage =>
    cases reason with
    | overflow g' =>
      cases stage with
      | leaving =>
        simp only [inHand?, Option.some.injEq, Prod.mk.injEq] at h
        rw [seat?, h.1]
      | _ => cases h
    | _ => cases h
  | copying | queueing | acknowledging =>
    simp only [inHand?, Option.some.injEq, Prod.mk.injEq] at h
    rw [seat?, h.1]
  | _ => cases h

variable {station : Station} {b b' : Barrier} {p q : FeederPhase} {seat : Seat}

theorem inHand?_of_seat? (h : p.seat? = none) : p.inHand? = none := by
  cases hi : p.inHand? with
  | none => rfl
  | some sg =>
    rw [seat?_of_inHand? hi] at h
    cases h

theorem Agrees.unseated (hs : p.seat? = none)
    (hj : ∀ channels, p = .joining channels → station.Serves channels)
    (hr : ∀ reason, p.reason? = some reason → reason.IsOrderly) : p.Agrees station b :=
  ⟨hj, by simp [hs], by simp [inHand?_of_seat? hs], hr⟩

theorem Agrees.keep (h : p.Agrees station b) (hs : q.seat? = p.seat?)
    (hi : q.inHand? = none ∨ q.inHand? = p.inHand?) (hj : ∀ channels, q ≠ .joining channels)
    (hr : ∀ reason, q.reason? = some reason → reason.IsOrderly) : q.Agrees station b := by
  refine ⟨fun channels hq => absurd hq (hj channels), ?_, ?_, hr⟩
  · intro seat hq
    exact h.seated seat (hs ▸ hq)
  · intro seat g hq
    rcases hi with hi | hi
    · rw [hi] at hq
      cases hq
    · exact h.owes seat g (hi ▸ hq)

theorem Agrees.spared (h : p.Agrees station b)
    (hb : ∀ w, p.worker? = some w → Barrier.Spares w b b') : p.Agrees station b' := by
  have hspare : ∀ seat, p.seat? = some seat → Barrier.Spares seat.worker b b' :=
    fun seat hs => hb _ (worker?_of_seat? hs)
  refine ⟨h.requested, ?_, ?_, h.orderly⟩
  · intro seat hs
    obtain ⟨⟨halive, hpaced⟩, hserved⟩ := h.seated seat hs
    obtain ⟨hg, ha, hp⟩ := hspare seat hs
    refine ⟨⟨ha.mpr halive, ?_⟩, hserved⟩
    simpa only [hg, hp] using hpaced
  · intro seat g hi
    obtain ⟨hg, -, hp⟩ := hspare seat (seat?_of_inHand? hi)
    rw [hp, hg]
    exact h.owes seat g hi

theorem Agrees.reset (h : p.Agrees station b) (hb : b.isReady = true) :
    p.Agrees station b.reset.2 := by
  have hnone : ∀ w, w ∉ b.pending := by
    rw [Barrier.isReady_iff_pending.mp hb]
    exact fun w => List.not_mem_nil
  refine ⟨h.requested, ?_, ?_, h.orderly⟩
  · intro seat hs
    obtain ⟨⟨halive, hpaced⟩, hserved⟩ := h.seated seat hs
    rw [if_neg (hnone _)] at hpaced
    refine ⟨⟨by simpa using halive, ?_⟩, hserved⟩
    rw [if_pos (by simpa using halive), hpaced]
    rfl
  · intro seat g hi
    exact absurd (h.owes seat g hi).1 (hnone _)

end FeederPhase

namespace Seat

variable {b : Barrier} {seat : Seat} {g : Nat}

theorem InStep.advanced (h : seat.InStep b) (ha : b.advanceOrTimeOut seat.lastSeen = .advanced g) :
    seat.worker ∈ b.pending ∧ g = b.generation ∧ g = seat.lastSeen + 1 := by
  have hp := h.paced
  split_ifs at hp with hw
  · have hg := Barrier.advance_eq_succ (.inl hp) ha
    exact ⟨hw, hg.trans hp, hg⟩
  · have hg := Barrier.advance_eq_succ (.inr hp) ha
    unfold Barrier.advanceOrTimeOut Barrier.advance at ha
    simp only [hp, Nat.lt_irrefl, if_false] at ha
    split_ifs at ha <;> cases ha

theorem InStep.eq_succ (h : seat.InStep b) (hw : seat.worker ∈ b.pending) (hg : g = b.generation) :
    g = seat.lastSeen + 1 := by
  have hp := h.paced
  rw [if_pos hw] at hp
  exact hg.trans hp.symm

theorem inStep_join {channels : List UInt32} (hs : b.Sound) :
    (Seat.mk b.nextId channels b.generation 0).InStep b.join.2 := by
  have hnew : b.nextId ∉ b.pending := by
    intro h
    exact Nat.lt_irrefl _ (hs.lt_nextId (Barrier.alive_of_mem (Barrier.mem_pending.mp h)))
  refine ⟨by simp, ?_⟩
  rw [if_neg (by simpa using hnew)]
  rfl

theorem inStep_settleAt (h : seat.worker ∈ b.alive) {n : Nat} :
    { seat with lastSeen := b.generation, acknowledged := n : Seat }.InStep
      (b.settleAt seat.worker) := by
  refine ⟨by simpa using h, ?_⟩
  rw [if_neg (by simp)]
  rfl

end Seat

namespace Station

theorem serves_of_validate {station : Station} {r : Request}
    (h : r.validate station.channelCount = .ok ()) : station.Serves r.channels := by
  unfold Request.validate at h
  intro c hc
  split at h
  · cases h
  · next hn => simpa using List.find?_eq_none.mp hn c hc

end Station

namespace Connection

open FeederPhase

variable {station : Station} {hub hub' : Hub} {c c' : Connection}

theorem agrees_consider (b : Barrier) (r : Except WireError Request) :
    (consider station r).Agrees station b := by
  unfold consider
  cases r with
  | error e => exact .unseated rfl (by simp) (by simp [reason?])
  | ok request =>
    cases hv : request.validate station.channelCount with
    | error e => exact .unseated (by simp [hv, seat?]) (by simp [hv]) (by simp [hv, reason?])
    | ok u =>
      refine .unseated (by simp [hv, seat?]) ?_ (by simp [hv, reason?])
      intro channels h
      simp only [hv, joining.injEq] at h
      rw [← h]
      exact Station.serves_of_validate hv

/-- Every action of a feeder keeps its agreement with the barrier, provided the slot holds the block
that was announced when the feeder copies it. -/
theorem FeederStep.agrees (h : FeederStep station hub c hub' c') (hs : hub.barrier.Sound)
    (ha : c.feeder.Agrees station hub.barrier)
    (hslot : ∀ seat g, c.feeder = .copying seat g →
      ∃ frame, hub.slot.copy seat.channels = some (g, frame)) :
    c'.feeder.Agrees station hub'.barrier := by
  cases h with
  | untimed hc | refuse hc | abandon hc | dismiss hc =>
    exact .unseated rfl (by simp) (by simp [reason?])
  | read hc hr => exact agrees_consider _ _
  | join hc =>
    rw [hc] at ha
    refine ⟨by simp, ?_, by simp [inHand?], by simp [reason?]⟩
    simpa [seat?] using ⟨Seat.inStep_join hs, ha.requested _ rfl⟩
  | begin hc | nextPart hc | reply hc | replyBroken hc | linkUp hc _ | timedOut hc _ =>
    rw [hc] at ha
    exact ha.keep rfl (.inl rfl) (by simp) (by simp [reason?])
  | linkDown hc _ | stopped hc _ =>
    rw [hc] at ha
    exact ha.keep rfl (.inl rfl) (by simp) (by simp [reason?, CloseReason.IsOrderly])
  | @advanced seat g hc hg =>
    rw [hc] at ha
    obtain ⟨hstep, hserved⟩ := ha.seated seat rfl
    obtain ⟨hw, hcur, -⟩ := hstep.advanced hg
    refine ⟨by simp, ?_, ?_, by simp [reason?]⟩
    · simpa [seat?] using ⟨hstep, hserved⟩
    · simpa [inHand?] using ⟨hw, hcur⟩
  | copy hc _ | queue hc _ =>
    rw [hc] at ha
    exact ha.keep rfl (.inr rfl) (by simp) (by simp [reason?])
  | stale hc hne =>
    obtain ⟨frame, hf⟩ := hslot _ _ hc
    exact absurd hf (hne frame)
  | overflow hc _ =>
    rw [hc] at ha
    exact ha.keep rfl (.inr rfl) (by simp) (by simp [reason?, CloseReason.IsOrderly])
  | @acknowledge seat g barrier hc hok =>
    rw [hc] at ha
    obtain ⟨hstep, hserved⟩ := ha.seated seat rfl
    obtain ⟨hw, rfl⟩ := ha.owes seat g rfl
    rw [hs.acknowledge_of_pending hw] at hok
    cases hok
    refine ⟨by simp, ?_, by simp [inHand?], by simp [reason?]⟩
    simpa [seat?] using ⟨Seat.inStep_settleAt hstep.alive, hserved⟩
  | @violate seat g e barrier hc herr =>
    rw [hc] at ha
    obtain ⟨hw, rfl⟩ := ha.owes seat g rfl
    rw [hs.acknowledge_of_pending hw] at herr
    cases herr
  | leave hc | record hc | closeQueue hc | hangUp hc | joined hc _ | drain hc =>
    rw [hc] at ha
    exact .unseated rfl (by simp) ha.orderly
  | finish hc =>
    rw [hc] at ha
    exact .unseated rfl (by simp) (by simpa only [reason?_over] using ha.orderly)

end Connection
end SampleCast
