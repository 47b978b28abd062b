import Mathlib.Data.List.Induction
import SampleCast.Proofs.Connection.Balance

/-! A sender at work.
The sender takes turns on a queue to which others push, which they close, and while the server may
be stopped. `Dispatch` keeps what the sender has found at each of its turns and which frames the
queue has accepted. `Sound` divides these into those that are sent, the one in hand and those still
queued, and `Stage` says for each phase what the last turns were. Main statement: `Sound.run`, that
every schedule keeps both. -/

namespace SampleCast

def Metrics.gained (m : Metrics) (frames bytes errors : Nat) : Metrics :=
  { m with
    framesSent := m.framesSent + UInt64.ofNat frames
    bytesSent := m.bytesSent + UInt64.ofNat bytes
    sendErrors := m.sendErrors + UInt64.ofNat errors }

namespace Connection

structure Found where
  hub : Hub
  connection : Connection
  peer : Acceptance

namespace Found

def IsEmpty (t : Found) : Prop :=
  t.connection.sender = .popping ∧ t.connection.queue.toList = []

def refused? (t : Found) : Option Fault :=
  match t.connection.sender with
  | .writing _ (b :: bs) =>
    match t.peer.settle (b :: bs) with
    | .broken f => some f
    | .more .. => none
  | _ => none

def isError (t : Found) : Bool :=
  match t.connection.sender with
  | .failing f => !(t.connection.queue.closed || f.isDisconnect)
  | _ => false

end Found

structure Dispatch where
  hub : Hub
  connection : Connection
  accepted : List Frame
  past : List Found := []

namespace Dispatch

inductive Action
  | turn (peer : Acceptance)
  | push (frame : Frame)
  | close
  | stop

def took (d : Dispatch) (peer : Acceptance) (hub : Hub) (c : Connection) : Dispatch :=
  { d with hub, connection := c, past := d.past ++ [⟨d.hub, d.connection, peer⟩] }

def act (d : Dispatch) : Action → Dispatch
  | .turn peer =>
    match d.connection.send d.hub peer with
    | none => d
    | some (hub, c) => d.took peer hub c
  | .push frame =>
    match d.connection.queue.push frame with
    | (.accepted, queue) =>
      { d with connection := { d.connection with queue }, accepted := d.accepted ++ [frame] }
    | (.overflow, queue) => { d with connection := { d.connection with queue } }
  | .close => { d with connection := { d.connection with queue := d.connection.queue.close } }
  | .stop => { d with hub := d.hub.stop }

def start (hub : Hub) (c : Connection) : Dispatch where
  hub
  connection := { c with sender := .popping, sent := {}, linkUp := true }
  accepted := c.queue.toList

def run (hub : Hub) (c : Connection) (actions : List Action) : Dispatch :=
  actions.foldl act (start hub c)

def failures (past : List Found) : List Fault := past.filterMap Found.refused?

def errors (past : List Found) : Nat := past.countP Found.isError

def FoundClosed (past : List Found) : Prop :=
  ∃ before t, past = before ++ [t] ∧ t.IsEmpty ∧ t.connection.queue.closed = true

def FoundStopped (past : List Found) : Prop :=
  ∃ before t t', past = before ++ [t, t'] ∧ t.IsEmpty ∧ t'.connection.sender = .polling ∧
    t'.hub.barrier.stopped = true

/-- The last three turns are a write that failed, a look whether the connection was closed, and the
link taken down. -/
def FoundBroken (past : List Found) (f : Fault) (closed : Bool) : Prop :=
  ∃ before t t' t'', past = before ++ [t, t', t''] ∧ t.refused? = some f ∧
    t'.connection.sender = .failing f ∧ t'.connection.queue.closed = closed ∧
    t''.connection.sender = .unlinking

structure Unbroken (past : List Found) (linkUp : Bool) : Prop where
  linkUp : linkUp = true
  failures : failures past = []
  errors : errors past = 0

/-- The one write that has failed was of the frame in hand, and a part of that frame is taken. -/
structure Broken (past : List Found) (held : List Frame) (part : List UInt8) (f : Fault) :
    Prop where
  failures : failures past = [f]
  held : ∃ frame left, held = [frame] ∧ Message.encode frame = part ++ left ∧ left ≠ []

/-- What the sender has in hand, and what its last turns were. -/
def Stage (past : List Found) (linkUp closed : Bool) (held items : List Frame)
    (part : List UInt8) : SenderPhase → Prop
  | .absent => False
  | .popping => held = [] ∧ part = [] ∧ Unbroken past linkUp
  | .polling => held = [] ∧ part = [] ∧ Unbroken past linkUp ∧
    ∃ before t, past = before ++ [t] ∧ t.IsEmpty
  | .writing size left => Unbroken past linkUp ∧
    ∃ frame, held = [frame] ∧ size = (Message.encode frame).length ∧
      Message.encode frame = part ++ left
  | .failing f => linkUp = true ∧ errors past = 0 ∧ Broken past held part f ∧
    ∃ before t, past = before ++ [t] ∧ t.refused? = some f
  | .unlinking => linkUp = true ∧ ∃ f before t t', Broken past held part f ∧
    past = before ++ [t, t'] ∧ t.refused? = some f ∧ t'.connection.sender = .failing f ∧
    errors past = if t'.isError then 1 else 0
  | .exited =>
    (held = [] ∧ part = [] ∧ Unbroken past linkUp ∧
      (FoundClosed past ∧ closed = true ∧ items = [] ∨ FoundStopped past)) ∨
    (linkUp = false ∧ ∃ f closed, Broken past held part f ∧ FoundBroken past f closed ∧
      errors past = if closed || f.isDisconnect then 0 else 1)

/-- Where the accepted frames are: sent, in hand with a part of it taken, and queued. -/
structure Sound (m : Metrics) (output : List UInt8) (d : Dispatch) (done held items : List Frame)
    (part : List UInt8) : Prop where
  all : d.accepted = done ++ held ++ items
  queue : d.connection.queue.Holds items
  sent : d.connection.sent = ⟨done.length, volume done⟩
  output : d.connection.output = output ++ done.flatMap Message.encode ++ part
  metrics : d.hub.metrics = m.gained done.length (volume done) (errors d.past)
  stage : Stage d.past d.connection.linkUp d.connection.queue.closed held items part
    d.connection.sender

variable {m : Metrics} {output part : List UInt8} {d : Dispatch} {done held items : List Frame}
  {hub : Hub} {peer : Acceptance} {c : Connection}

theorem gained_zero : m.gained 0 0 0 = m := by simp [Metrics.gained]

section

variable {frame : Frame} {queue : Queue Frame} {size : Nat} {left : List UInt8} {f : Fault}

theorem send_empty (hc : c.sender = .popping)
    (hp : c.queue.popOrTimeOut = (if c.queue.closed then .closed else .empty, c.queue)) :
    c.send hub peer =
      some (hub, { c with sender := if c.queue.closed then .exited else .polling }) := by
  simp only [send, hc]
  rw [hp]
  cases c.queue.closed <;> rfl

theorem send_item (hc : c.sender = .popping) (hp : c.queue.popOrTimeOut = (.item frame, queue)) :
    c.send hub peer = some (hub, { c with
      queue
      sender := .writing (Message.encode frame).length (Message.encode frame) }) := by
  simp only [send, hc, hp]

theorem send_polling (hc : c.sender = .polling) :
    c.send hub peer =
      some (hub, { c with sender := if hub.barrier.stopped then .exited else .popping }) := by
  simp only [send, hc]

theorem send_sent (hc : c.sender = .writing size []) :
    c.send hub peer = some (hub.record (.sent size), { c with
      sent := ⟨c.sent.frames + 1, c.sent.bytes + size⟩
      sender := .popping }) := by
  simp only [send, hc]

theorem send_more {b : UInt8} {bs taken : List UInt8} (hc : c.sender = .writing size (b :: bs))
    (hp : peer.settle (b :: bs) = .more taken left) :
    c.send hub peer =
      some (hub, { c with output := c.output ++ taken, sender := .writing size left }) := by
  simp only [send, hc, hp]

theorem send_broken {b : UInt8} {bs : List UInt8} (hc : c.sender = .writing size (b :: bs))
    (hp : peer.settle (b :: bs) = .broken f) :
    c.send hub peer = some (hub, { c with sender := .failing f }) := by
  simp only [send, hc, hp]

theorem send_failing (hc : c.sender = .failing f) :
    c.send hub peer =
      some ((c.failureEvent f).foldl Hub.record hub, { c with sender := .unlinking }) := by
  simp only [send, hc]

theorem send_unlinking (hc : c.sender = .unlinking) :
    c.send hub peer = some (hub, { c with linkUp := false, sender := .exited }) := by
  simp only [send, hc]

theorem send_exited (hc : c.sender = .exited) : c.send hub peer = none := by
  simp only [send, hc]

end

theorem act_turn {hub : Hub} (h : d.connection.send d.hub peer = some (hub, c)) :
    d.act (.turn peer) = d.took peer hub c := by
  simp only [act, h]

theorem failures_concat (past : List Found) (t : Found) :
    failures (past ++ [t]) = failures past ++ t.refused?.toList :=
  filterMap_concat _ _ _

theorem errors_concat (past : List Found) (t : Found) :
    errors (past ++ [t]) = errors past + if t.isError then 1 else 0 := by
  simp [errors, List.countP_cons]

theorem Unbroken.concat {past : List Found} {linkUp : Bool} {t : Found}
    (h : Unbroken past linkUp) (hr : t.refused? = none) (he : t.isError = false) :
    Unbroken (past ++ [t]) linkUp := by
  refine ⟨h.linkUp, ?_, ?_⟩
  · rw [failures_concat, h.failures, hr]
    rfl
  · rw [errors_concat, h.errors, he]
    rfl

theorem Broken.concat {past : List Found} {t : Found} {f : Fault} (h : Broken past held part f)
    (hr : t.refused? = none) : Broken (past ++ [t]) held part f := by
  refine ⟨?_, h.held⟩
  rw [failures_concat, h.failures, hr]
  rfl

namespace Sound

theorem start (hub : Hub) (c : Connection) (hq : c.queue.Holds items) :
    Sound hub.metrics c.output (.start hub c) [] [] items [] := by
  refine ⟨hq.toList, hq, rfl, ?_, gained_zero.symm, rfl, rfl, rfl, rfl, rfl⟩
  simp [Dispatch.start]

theorem turn (h : Sound m output d done held items part) {held' items' : List Frame}
    {part' : List UInt8} (ha : held ++ items = held' ++ items') (hq : c.queue.Holds items')
    (hs : c.sent = d.connection.sent)
    (ho : c.output = output ++ done.flatMap Message.encode ++ part')
    (he : Found.isError ⟨d.hub, d.connection, peer⟩ = false)
    (hstage : Stage (d.past ++ [⟨d.hub, d.connection, peer⟩]) c.linkUp c.queue.closed held' items'
      part' c.sender) :
    Sound m output (d.took peer d.hub c) done held' items' part' := by
  refine ⟨?_, hq, hs.trans h.sent, ho, ?_, hstage⟩
  · change d.accepted = _
    rw [h.all, List.append_assoc, ha, List.append_assoc]
  · rw [took, errors_concat, he]
    exact h.metrics

theorem turn_popping (h : Sound m output d done held items part)
    (hc : d.connection.sender = .popping) :
    ∃ done held items part, Sound m output (d.act (.turn peer)) done held items part := by
  have hstage := h.stage
  rw [hc] at hstage
  obtain ⟨rfl, rfl, hunbroken⟩ := hstage
  have hr : Found.refused? ⟨d.hub, d.connection, peer⟩ = none := by simp only [Found.refused?, hc]
  have he : Found.isError ⟨d.hub, d.connection, peer⟩ = false := by simp only [Found.isError, hc]
  rcases h.queue.popOrTimeOut with ⟨rfl, hp⟩ | ⟨frame, rest, q, rfl, hp, hq⟩
  · have hempty : Found.IsEmpty ⟨d.hub, d.connection, peer⟩ := ⟨hc, h.queue.toList⟩
    rw [act_turn (send_empty hc hp)]
    refine ⟨done, [], [], [], h.turn rfl h.queue rfl h.output he ?_⟩
    cases hclosed : d.connection.queue.closed with
    | true =>
      exact .inl ⟨rfl, rfl, hunbroken.concat hr he, .inl ⟨⟨_, _, rfl, hempty, hclosed⟩, rfl, rfl⟩⟩
    | false => exact ⟨rfl, rfl, hunbroken.concat hr he, _, _, rfl, hempty⟩
  · rw [act_turn (send_item hc hp)]
    refine ⟨done, [frame], rest, [], h.turn rfl hq rfl h.output he ?_⟩
    exact ⟨hunbroken.concat hr he, frame, rfl, rfl, rfl⟩

theorem turn_polling (h : Sound m output d done held items part)
    (hc : d.connection.sender = .polling) :
    ∃ done held items part, Sound m output (d.act (.turn peer)) done held items part := by
  have hstage := h.stage
  rw [hc] at hstage
  obtain ⟨rfl, rfl, hunbroken, before, t, hpast, hempty⟩ := hstage
  have hr : Found.refused? ⟨d.hub, d.connection, peer⟩ = none := by simp only [Found.refused?, hc]
  have he : Found.isError ⟨d.hub, d.connection, peer⟩ = false := by simp only [Found.isError, hc]
  rw [act_turn (send_polling hc)]
  refine ⟨done, [], items, [], h.turn rfl h.queue rfl h.output he ?_⟩
  cases hs : d.hub.barrier.stopped with
  | true =>
    refine .inl ⟨rfl, rfl, hunbroken.concat hr he,
      .inr ⟨before, t, ⟨d.hub, d.connection, peer⟩, ?_, hempty, hc, hs⟩⟩
    rw [hpast, List.append_assoc]
    rfl
  | false => exact ⟨rfl, rfl, hunbroken.concat hr he⟩

theorem turn_writing {size : Nat} {left : List UInt8} (h : Sound m output d done held items part)
    (hc : d.connection.sender = .writing size left) :
    ∃ done held items part, Sound m output (d.act (.turn peer)) done held items part := by
  have hstage := h.stage
  rw [hc] at hstage
  obtain ⟨hunbroken, frame, rfl, rfl, hmessage⟩ := hstage
  have he : Found.isError ⟨d.hub, d.connection, peer⟩ = false := by simp only [Found.isError, hc]
  cases left with
  | nil =>
    have hr : Found.refused? ⟨d.hub, d.connection, peer⟩ = none := by
      simp only [Found.refused?, hc]
    rw [act_turn (send_sent hc)]
    rw [List.append_nil] at hmessage
    refine ⟨done ++ [frame], [], items, [], ?_, h.queue, ?_, ?_, ?_, rfl, rfl,
      hunbroken.concat hr he⟩
    · rw [List.append_nil]
      exact h.all
    · rw [volume_concat, List.length_append]
      simp [took, h.sent]
    · change d.connection.output = _
      rw [h.output, ← hmessage]
      simp
    · rw [took, errors_concat, he, volume_concat, List.length_append]
      change d.hub.metrics.record (.sent (Message.encode frame).length) =
        m.gained (done.length + 1) (volume done + (Message.encode frame).length) (errors d.past)
      rw [h.metrics]
      simp [Metrics.record, Metrics.gained, UInt64.add_assoc]
  | cons b bs =>
    cases hp : peer.settle (b :: bs) with
    | more taken left =>
      have hr : Found.refused? ⟨d.hub, d.connection, peer⟩ = none := by
        simp only [Found.refused?, hc, hp]
      rw [act_turn (send_more hc hp)]
      refine ⟨done, [frame], items, part ++ taken, h.turn rfl h.queue rfl ?_ he ?_⟩
      · change d.connection.output ++ taken = _
        rw [h.output, List.append_assoc _ part]
      · refine ⟨hunbroken.concat hr he, frame, rfl, rfl, ?_⟩
        rw [hmessage, Acceptance.settle_eq_more hp, List.append_assoc]
    | broken f =>
      have hr : Found.refused? ⟨d.hub, d.connection, peer⟩ = some f := by
        simp only [Found.refused?, hc, hp]
      rw [act_turn (send_broken hc hp)]
      refine ⟨done, [frame], items, part, h.turn rfl h.queue rfl h.output he ?_⟩
      refine ⟨hunbroken.linkUp, ?_, ⟨?_, frame, b :: bs, rfl, hmessage, nofun⟩, _, _, rfl, hr⟩
      · rw [errors_concat, he, hunbroken.errors]
        rfl
      · rw [failures_concat, hunbroken.failures, hr]
        rfl

theorem turn_failing {f : Fault} (h : Sound m output d done held items part)
    (hc : d.connection.sender = .failing f) :
    ∃ done held items part, Sound m output (d.act (.turn peer)) done held items part := by
  have hstage := h.stage
  rw [hc] at hstage
  obtain ⟨hlink, herrors, hbroken, before, t, hpast, hrefused⟩ := hstage
  have hr : Found.refused? ⟨d.hub, d.connection, peer⟩ = none := by simp only [Found.refused?, hc]
  rw [act_turn (send_failing hc)]
  refine ⟨done, held, items, part, h.all, h.queue, h.sent, h.output, ?_, hlink, f, before, t,
    ⟨d.hub, d.connection, peer⟩, hbroken.concat hr, ?_, hrefused, hc, ?_⟩
  · rw [took, errors_concat, herrors, Nat.zero_add]
    change ((d.connection.failureEvent f).foldl Hub.record d.hub).metrics = _
    simp only [failureEvent, Found.isError, hc]
    have hmetrics := h.metrics
    rw [herrors] at hmetrics
    cases d.connection.queue.closed || f.isDisconnect with
    | true => exact hmetrics
    | false =>
      change d.hub.metrics.record .sendFailed = _
      rw [hmetrics]
      simp [Metrics.record, Metrics.gained]
  · rw [took, hpast, List.append_assoc]
    rfl
  · rw [took, errors_concat, herrors, Nat.zero_add]

theorem turn_unlinking (h : Sound m output d done held items part)
    (hc : d.connection.sender = .unlinking) :
    ∃ done held items part, Sound m output (d.act (.turn peer)) done held items part := by
  have hstage := h.stage
  rw [hc] at hstage
  obtain ⟨-, f, before, t, t', hbroken, hpast, hrefused, hfailing, herrors⟩ := hstage
  have hr : Found.refused? ⟨d.hub, d.connection, peer⟩ = none := by simp only [Found.refused?, hc]
  have he : Found.isError ⟨d.hub, d.connection, peer⟩ = false := by simp only [Found.isError, hc]
  rw [act_turn (send_unlinking hc)]
  refine ⟨done, held, items, part, h.turn rfl h.queue rfl h.output he (.inr ?_)⟩
  refine ⟨rfl, f, t'.connection.queue.closed, hbroken.concat hr, ⟨before, t, t',
    ⟨d.hub, d.connection, peer⟩, ?_, hrefused, hfailing, rfl, hc⟩, ?_⟩
  · rw [hpast, List.append_assoc]
    rfl
  · rw [errors_concat, he, herrors]
    simp only [Found.isError, hfailing]
    cases t'.connection.queue.closed <;> cases f.isDisconnect <;> rfl

theorem turn_any (h : Sound m output d done held items part) (peer : Acceptance) :
    ∃ done held items part, Sound m output (d.act (.turn peer)) done held items part := by
  cases hc : d.connection.sender with
  | absent =>
    have hstage := h.stage
    rw [hc] at hstage
    exact hstage.elim
  | popping => exact h.turn_popping hc
  | polling => exact h.turn_polling hc
  | writing size left => exact h.turn_writing hc
  | failing f => exact h.turn_failing hc
  | unlinking => exact h.turn_unlinking hc
  | exited =>
    simp only [act, send_exited hc]
    exact ⟨done, held, items, part, h⟩

theorem requeue {queue : Queue Frame} {more : List Frame}
    (h : Sound m output d done held items part) (hq : queue.Holds (items ++ more))
    (hclosed : d.connection.queue.closed = true → queue.closed = true ∧ more = []) :
    Sound m output
      { d with connection := { d.connection with queue }, accepted := d.accepted ++ more } done held
      (items ++ more) part := by
  refine ⟨?_, hq, h.sent, h.output, h.metrics, ?_⟩
  · change d.accepted ++ more = _
    rw [h.all, List.append_assoc]
  · have hstage := h.stage
    change Stage d.past d.connection.linkUp queue.closed held (items ++ more) part
      d.connection.sender
    cases hc : d.connection.sender with
    | exited =>
      rw [hc] at hstage
      rcases hstage with ⟨hheld, hpart, hunbroken, hend⟩ | hbroken
      · refine .inl ⟨hheld, hpart, hunbroken, hend.imp_left ?_⟩
        intro hend
        obtain ⟨hfound, hwas, hnone⟩ := hend
        obtain ⟨hnow, hmore⟩ := hclosed hwas
        exact ⟨hfound, hnow, by rw [hnone, hmore, List.append_nil]⟩
      · exact .inr hbroken
    | _ =>
      rw [hc] at hstage
      exact hstage

theorem step (h : Sound m output d done held items part) (a : Action) :
    ∃ done held items part, Sound m output (d.act a) done held items part := by
  cases a with
  | turn peer => exact h.turn_any peer
  | push frame =>
    rcases h.queue.push frame with ⟨-, hp⟩ | ⟨hopen, -, q, hp, hq⟩
    · simp only [act, hp]
      exact ⟨done, held, items, part, h⟩
    · simp only [act, hp]
      refine ⟨done, held, items ++ [frame], part, h.requeue hq fun hclosed => ?_⟩
      rw [hopen] at hclosed
      cases hclosed
  | close =>
    have hq : d.connection.queue.close.Holds (items ++ []) := by simpa using h.queue.close
    have hclose := h.requeue hq fun _ => ⟨rfl, rfl⟩
    rw [List.append_nil, List.append_nil] at hclose
    exact ⟨done, held, items, part, hclose⟩
  | stop => exact ⟨done, held, items, part, h.all, h.queue, h.sent, h.output, h.metrics, h.stage⟩

theorem run (hub : Hub) (c : Connection) (hq : c.queue.Holds items) (actions : List Action) :
    ∃ done held items part,
      Sound hub.metrics c.output (Dispatch.run hub c actions) done held items part := by
  induction actions using List.reverseRecOn with
  | nil => exact ⟨_, _, _, _, .start hub c hq⟩
  | append_singleton actions a ih =>
    obtain ⟨done, held, items, part, h⟩ := ih
    rw [Dispatch.run, List.foldl_append]
    exact h.step a

end Sound

end Dispatch
end Connection
end SampleCast
