import Mathlib.Tactic.SplitIfs
import SampleCast.Connection.Feeder
import SampleCast.Connection.Sender
import SampleCast.Proofs.Stream.Writer

/-! The steps of a connection, case by case.
`FeederStep` and `SenderStep` list what one action of a worker can do, with all that the action
found: one constructor for each outcome of each phase. `feederStep_of_feed` and
`senderStep_of_send` say that an action does nothing else, so that a law about all actions is
proved by cases on them. -/

namespace SampleCast.Connection

inductive FeederStep (station : Station) (hub : Hub) (c : Connection) : Hub → Connection → Prop
  | untimed (hc : c.feeder = .reading) :
      FeederStep station hub c hub { c with feeder := .refusing (.socket .zeroTimeout) }
  | read {r : Except WireError Request} {rest : List Reading} (hc : c.feeder = .reading)
      (hr : Request.read station.requestLimit c.incoming = (r, rest)) :
      FeederStep station hub c hub { c with incoming := rest, feeder := consider station r }
  | refuse {e : ConnectionError} (hc : c.feeder = .refusing e) :
      FeederStep station hub c (hub.record .handshakeFailed) { c with feeder := .hangingUp e }
  | join {channels : List UInt32} (hc : c.feeder = .joining channels) :
      FeederStep station hub c { hub with barrier := hub.barrier.join.2 }
        { c with
          feeder := .replying ⟨hub.barrier.nextId, channels, hub.barrier.generation, 0⟩
            (Reply.parts ⟨station.rate⟩) }
  | begin {seat : Seat} (hc : c.feeder = .replying seat []) :
      FeederStep station hub c hub { c with sender := .popping, feeder := .checking seat }
  | nextPart {seat : Seat} {parts : List (List UInt8)}
      (hc : c.feeder = .replying seat ([] :: parts)) :
      FeederStep station hub c hub { c with feeder := .replying seat parts }
  | reply {seat : Seat} {taken left : List UInt8} {parts : List (List UInt8)}
      (hc : c.feeder = .replying seat ((taken ++ left) :: parts)) :
      FeederStep station hub c hub
        { c with output := c.output ++ taken, feeder := .replying seat (left :: parts) }
  | replyBroken {seat : Seat} {parts : List (List UInt8)} {f : Fault}
      (hc : c.feeder = .replying seat parts) :
      FeederStep station hub c hub { c with feeder := .abandoning seat f }
  | abandon {seat : Seat} {f : Fault} (hc : c.feeder = .abandoning seat f) :
      FeederStep station hub c (hub.leave seat.worker)
        { c with feeder := .hangingUp (.request (.io f)) }
  | linkUp {seat : Seat} (hc : c.feeder = .checking seat) (hl : c.linkUp = true) :
      FeederStep station hub c hub { c with feeder := .waiting seat }
  | linkDown {seat : Seat} (hc : c.feeder = .checking seat) (hl : c.linkUp = false) :
      FeederStep station hub c hub { c with feeder := .closing seat .linkDown .leaving }
  | advanced {seat : Seat} {g : Nat} (hc : c.feeder = .waiting seat)
      (ha : hub.barrier.advanceOrTimeOut seat.lastSeen = .advanced g) :
      FeederStep station hub c hub { c with feeder := .copying seat g }
  | timedOut {seat : Seat} (hc : c.feeder = .waiting seat)
      (ha : hub.barrier.advanceOrTimeOut seat.lastSeen = .timedOut) :
      FeederStep station hub c hub { c with feeder := .checking seat }
  | stopped {seat : Seat} (hc : c.feeder = .waiting seat)
      (ha : hub.barrier.advanceOrTimeOut seat.lastSeen = .stopped) :
      FeederStep station hub c hub { c with feeder := .closing seat .shutdown .leaving }
  | copy {seat : Seat} {g : Nat} {frame : Frame} (hc : c.feeder = .copying seat g)
      (hs : hub.slot.copy seat.channels = some (g, frame)) :
      FeederStep station hub c hub { c with feeder := .queueing seat g frame }
  | stale {seat : Seat} {g published : Nat} (hc : c.feeder = .copying seat g)
      (hs : ∀ frame, hub.slot.copy seat.channels ≠ some (g, frame)) :
      FeederStep station hub c hub
        { c with feeder := .closing seat (.stale g published) .leaving }
  | queue {seat : Seat} {g : Nat} {frame : Frame} {q : Queue Frame}
      (hc : c.feeder = .queueing seat g frame) (hq : c.queue.push frame = (.accepted, q)) :
      FeederStep station hub c hub { c with queue := q, feeder := .acknowledging seat g }
  | overflow {seat : Seat} {g : Nat} {frame : Frame} {q : Queue Frame}
      (hc : c.feeder = .queueing seat g frame) (hq : c.queue.push frame = (.overflow, q)) :
      FeederStep station hub c hub
        { c with queue := q, feeder := .closing seat (.overflow g) .leaving }
  | acknowledge {seat : Seat} {g : Nat} {barrier : Barrier}
      (hc : c.feeder = .acknowledging seat g)
      (ha : hub.barrier.acknowledge seat.worker g = (.ok (), barrier)) :
      FeederStep station hub c { hub with barrier }
        { c with
          feeder := .checking { seat with lastSeen := g, acknowledged := seat.acknowledged + 1 } }
  | violate {seat : Seat} {g : Nat} {e : AckError} {barrier : Barrier}
      (hc : c.feeder = .acknowledging seat g)
      (ha : hub.barrier.acknowledge seat.worker g = (.error e, barrier)) :
      FeederStep station hub c { hub with barrier }
        { c with feeder := .closing seat (.violated e) .leaving }
  | leave {seat : Seat} {reason : CloseReason} (hc : c.feeder = .closing seat reason .leaving) :
      FeederStep station hub c (hub.leave seat.worker)
        { c with feeder := .closing seat reason .recording }
  | record {seat : Seat} {reason : CloseReason} (hc : c.feeder = .closing seat reason .recording) :
      FeederStep station hub c ((closeEvent reason).foldl Hub.record hub)
        { c with feeder := .closing seat reason .sealing }
  | closeQueue {seat : Seat} {reason : CloseReason}
      (hc : c.feeder = .closing seat reason .sealing) :
      FeederStep station hub c hub
        { c with queue := c.queue.close, feeder := .closing seat reason .hangingUp }
  | hangUp {seat : Seat} {reason : CloseReason} (hc : c.feeder = .closing seat reason .hangingUp) :
      FeederStep station hub c hub
        { c with hungUp := true, feeder := .closing seat reason .joining }
  | joined {seat : Seat} {reason : CloseReason} (hc : c.feeder = .closing seat reason .joining)
      (hs : c.sender = .exited) :
      FeederStep station hub c hub { c with feeder := .closing seat reason .draining }
  | drain {seat : Seat} {reason : CloseReason} (hc : c.feeder = .closing seat reason .draining) :
      FeederStep station hub c hub
        { c with
          queue := c.queue.drain.2
          feeder := .returned (.served (c.report seat reason c.queue.drain.1)) }
  | dismiss {e : ConnectionError} (hc : c.feeder = .hangingUp e) :
      FeederStep station hub c hub { c with hungUp := true, feeder := .returned (.refused e) }
  | finish {o : ConnectionOutcome} (hc : c.feeder = .returned o) :
      FeederStep station hub c (hub.record .closed) { c with feeder := .over o }

inductive SenderStep (hub : Hub) (c : Connection) : Hub → Connection → Prop
  | pop {frame : Frame} {q : Queue Frame} (hc : c.sender = .popping)
      (hq : c.queue.popOrTimeOut = (.item frame, q)) :
      SenderStep hub c hub
        { c with
          queue := q
          sender := .writing (Message.encode frame).length (Message.encode frame) }
  | closed {q : Queue Frame} (hc : c.sender = .popping)
      (hq : c.queue.popOrTimeOut = (.closed, q)) :
      SenderStep hub c hub { c with queue := q, sender := .exited }
  | empty {q : Queue Frame} (hc : c.sender = .popping) (hq : c.queue.popOrTimeOut = (.empty, q)) :
      SenderStep hub c hub { c with queue := q, sender := .polling }
  | stop (hc : c.sender = .polling) (hs : hub.barrier.stopped = true) :
      SenderStep hub c hub { c with sender := .exited }
  | resume (hc : c.sender = .polling) (hs : hub.barrier.stopped = false) :
      SenderStep hub c hub { c with sender := .popping }
  | sent {size : Nat} (hc : c.sender = .writing size []) :
      SenderStep hub c (hub.record (.sent size))
        { c with sent := ⟨c.sent.frames + 1, c.sent.bytes + size⟩, sender := .popping }
  | write {size : Nat} {taken left : List UInt8} (hc : c.sender = .writing size (taken ++ left))
      (hn : taken ++ left ≠ []) :
      SenderStep hub c hub { c with output := c.output ++ taken, sender := .writing size left }
  | writeBroken {size : Nat} {left : List UInt8} {f : Fault} (hc : c.sender = .writing size left)
      (hn : left ≠ []) :
      SenderStep hub c hub { c with sender := .failing f }
  | fail {f : Fault} (hc : c.sender = .failing f) :
      SenderStep hub c ((c.failureEvent f).foldl Hub.record hub) { c with sender := .unlinking }
  | unlink (hc : c.sender = .unlinking) :
      SenderStep hub c hub { c with linkUp := false, sender := .exited }

variable {station : Station} {hub hub' : Hub} {peer : Acceptance} {c c' : Connection}

theorem consider_cases (station : Station) (r : Except WireError Request) :
    (∃ e, consider station r = .refusing e) ∨
      ∃ channels, consider station r = .joining channels := by
  unfold consider
  cases r with
  | error e => exact .inl ⟨_, rfl⟩
  | ok request =>
    cases hv : request.validate station.channelCount with
    | error e => exact .inl ⟨.request e, by simp only [hv]⟩
    | ok u => exact .inr ⟨request.channels, by simp only [hv]⟩

theorem feederStep_of_close {seat : Seat} {reason : CloseReason} {stage : Closing}
    (hc : c.feeder = .closing seat reason stage)
    (h : close hub c seat reason stage = some (hub', c')) :
    FeederStep station hub c hub' c' := by
  cases stage with
  | leaving =>
    cases h
    exact .leave hc
  | recording =>
    cases h
    exact .record hc
  | sealing =>
    cases h
    exact .closeQueue hc
  | hangingUp =>
    cases h
    exact .hangUp hc
  | joining =>
    simp only [close] at h
    split_ifs at h with hs
    cases h
    exact .joined hc hs
  | draining =>
    cases h
    exact .drain hc

theorem feederStep_of_copy {seat : Seat} {g : Nat} (hc : c.feeder = .copying seat g) :
    FeederStep station hub c hub { c with feeder := inspect hub.slot seat g } := by
  unfold inspect
  cases hs : hub.slot.copy seat.channels with
  | none => exact .stale hc (by simp [hs])
  | some p =>
    obtain ⟨published, frame⟩ := p
    by_cases hp : published = g
    · subst hp
      simpa using FeederStep.copy hc hs
    · have hne : ∀ frame, hub.slot.copy seat.channels ≠ some (g, frame) := by simp [hs, hp]
      have hstale : FeederStep station hub c hub
          { c with feeder := .closing seat (.stale g published) .leaving } := .stale hc hne
      simpa [hp] using hstale

theorem feederStep_of_feed (h : c.feed station hub peer = some (hub', c')) :
    FeederStep station hub c hub' c' := by
  unfold feed at h
  cases hc : c.feeder with
  | reading =>
    simp only [hc] at h
    split_ifs at h
    · cases h
      exact .untimed hc
    · cases h
      exact .read hc rfl
  | refusing e =>
    simp only [hc] at h
    cases h
    exact .refuse hc
  | joining channels =>
    simp only [hc] at h
    cases h
    exact .join hc
  | replying seat parts =>
    rcases parts with _ | ⟨_ | ⟨b, bs⟩, parts⟩
    · simp only [hc] at h
      cases h
      exact .begin hc
    · simp only [hc] at h
      cases h
      exact .nextPart hc
    · simp only [hc] at h
      cases hp : peer.settle (b :: bs) with
      | more taken left =>
        simp only [hp] at h
        cases h
        exact .reply (by rw [hc, Acceptance.settle_eq_more hp])
      | broken f =>
        simp only [hp] at h
        cases h
        exact .replyBroken hc
  | abandoning seat f =>
    simp only [hc] at h
    cases h
    exact .abandon hc
  | checking seat =>
    simp only [hc] at h
    cases h
    by_cases hl : c.linkUp = true
    · rw [if_pos hl]
      exact .linkUp hc hl
    · rw [if_neg hl]
      exact .linkDown hc (by simpa using hl)
  | waiting seat =>
    simp only [hc] at h
    cases ha : hub.barrier.advanceOrTimeOut seat.lastSeen with
    | advanced g =>
      simp only [ha] at h
      cases h
      exact .advanced hc ha
    | timedOut =>
      simp only [ha] at h
      cases h
      exact .timedOut hc ha
    | stopped =>
      simp only [ha] at h
      cases h
      exact .stopped hc ha
  | copying seat g =>
    simp only [hc] at h
    cases h
    exact feederStep_of_copy hc
  | queueing seat g frame =>
    simp only [hc] at h
    rcases hq : c.queue.push frame with ⟨_ | _, q⟩
    · simp only [hq] at h
      cases h
      exact .queue hc hq
    · simp only [hq] at h
      cases h
      exact .overflow hc hq
  | acknowledging seat g =>
    simp only [hc] at h
    rcases ha : hub.barrier.acknowledge seat.worker g with ⟨_ | _, barrier⟩
    · simp only [ha] at h
      cases h
      exact .violate hc ha
    · simp only [ha] at h
      cases h
      exact .acknowledge hc ha
  | closing seat reason stage =>
    simp only [hc] at h
    exact feederStep_of_close hc h
  | hangingUp e =>
    simp only [hc] at h
    cases h
    exact .dismiss hc
  | returned o =>
    simp only [hc] at h
    cases h
    exact .finish hc
  | _ => simp [hc] at h

theorem senderStep_of_send (h : c.send hub peer = some (hub', c')) : SenderStep hub c hub' c' := by
  unfold send at h
  cases hc : c.sender with
  | absent => simp [hc] at h
  | popping =>
    simp only [hc] at h
    rcases hq : c.queue.popOrTimeOut with ⟨_ | _ | _, q⟩
    · simp only [hq] at h
      cases h
      exact .pop hc hq
    · simp only [hq] at h
      cases h
      exact .closed hc hq
    · simp only [hq] at h
      cases h
      exact .empty hc hq
  | polling =>
    simp only [hc] at h
    cases hs : hub.barrier.stopped with
    | true =>
      simp only [hs] at h
      cases h
      exact .stop hc hs
    | false =>
      simp only [hs] at h
      cases h
      exact .resume hc hs
  | writing size left =>
    cases left with
    | nil =>
      simp only [hc] at h
      cases h
      exact .sent hc
    | cons b bs =>
      simp only [hc] at h
      cases hp : peer.settle (b :: bs) with
      | more taken left =>
        simp only [hp] at h
        cases h
        exact .write (by rw [hc, Acceptance.settle_eq_more hp])
          (by simp [← Acceptance.settle_eq_more hp])
      | broken f =>
        simp only [hp] at h
        cases h
        exact .writeBroken hc (by simp)
  | failing f =>
    simp only [hc] at h
    cases h
    exact .fail hc
  | unlinking =>
    simp only [hc] at h
    cases h
    exact .unlink hc
  | exited => simp [hc] at h

end SampleCast.Connection
