import SampleCast.Proofs.Connection.Balance
import SampleCast.Proofs.Metrics
import SampleCast.Proofs.Queue.Fifo

/-! What a connection records.
The two workers of a connection record their events apart, and neither hears of the other's. What
the feeder has recorded is told by the phase that it has come to. What the sender has recorded are
the messages that it counts in its statistics, and after them at most one error. Main statement:
`Life.settled`, on all that a connection has recorded when it is over, which also says of an error
that it stands for a write that failed before the feeder closed the queue and hung up. -/

namespace SampleCast

open Metrics (Event Counter tally)

@[simp] theorem Hub.metrics_recordAll {h : Hub} {es : List Event} :
    (es.foldl Hub.record h).metrics = es.foldl Metrics.record h.metrics := by
  induction es generalizing h with
  | nil => rfl
  | cons e es ih =>
    rw [List.foldl_cons, ih]
    rfl

namespace CloseReason

def isOverflow : CloseReason → Bool
  | .overflow _ => true
  | _ => false

def isViolation : CloseReason → Bool
  | .violated _ | .stale .. => true
  | _ => false

end CloseReason

namespace FeederPhase

/-- What a feeder has recorded on the way to a phase. A connection that fails after it has joined is
no failed handshake. -/
def recorded (joined : Bool) : FeederPhase → List Event
  | .hangingUp _ | .returned (.refused _) => if joined then [] else [.handshakeFailed]
  | .over (.refused _) => (if joined then [] else [.handshakeFailed]) ++ [.closed]
  | .closing _ reason .sealing | .closing _ reason .hangingUp | .closing _ reason .joining
  | .closing _ reason .draining => Connection.closeEvent reason
  | .returned (.served report) => Connection.closeEvent report.reason
  | .over (.served report) => Connection.closeEvent report.reason ++ [.closed]
  | _ => []

theorem recorded_over (joined : Bool) (o : ConnectionOutcome) :
    recorded joined (.over o) = recorded joined (.returned o) ++ [.closed] := by
  cases o <;> rfl

def IsSealed : FeederPhase → Prop
  | .closing _ _ .hangingUp | .closing _ _ .joining | .closing _ _ .draining
  | .returned (.served _) | .over (.served _) => True
  | _ => False

def IsDown : FeederPhase → Prop
  | .closing _ _ .joining | .closing _ _ .draining | .returned _ | .over _ => True
  | _ => False

theorem isSealed_of_isDown {p : FeederPhase} (hd : p.IsDown) (hs : p.IsServing) : p.IsSealed := by
  unfold IsDown at hd
  split at hd
  · trivial
  · trivial
  · rename_i o
    cases o with
    | refused e => exact hs
    | served report => trivial
  · rename_i o
    cases o with
    | refused e => exact hs
    | served report => trivial
  · exact hd.elim

end FeederPhase

def SenderPhase.IsLate : SenderPhase → Prop
  | .unlinking | .exited => True
  | _ => False

namespace Connection

def feedEvents (c : Connection) : List Event :=
  match c.feeder with
  | .refusing _ => [.handshakeFailed]
  | .closing _ reason .recording => closeEvent reason
  | .returned _ => [.closed]
  | _ => []

def sendEvents (c : Connection) : List Event :=
  match c.sender with
  | .writing size [] => [.sent size]
  | .failing f => c.failureEvent f
  | _ => []

variable {station : Station} {hub hub' : Hub} {c c' : Connection} {joined : Option Seat}
  {left : Option WorkerId}

theorem FeederStep.metrics (h : FeederStep station hub c hub' c') :
    hub'.metrics = c.feedEvents.foldl Metrics.record hub.metrics := by
  cases h with
  | refuse hc | finish hc =>
    rw [feedEvents, hc]
    rfl
  | record hc =>
    rw [feedEvents, hc]
    exact Hub.metrics_recordAll
  | _ hc =>
    rw [feedEvents, hc]
    rfl

theorem sendEvents_of_left {size : Nat} {left : List UInt8} (hc : c.sender = .writing size left)
    (hn : left ≠ []) : c.sendEvents = [] := by
  rw [sendEvents, hc]
  cases left with
  | nil => exact absurd rfl hn
  | cons b bs => rfl

theorem SenderStep.metrics (h : SenderStep hub c hub' c') :
    hub'.metrics = c.sendEvents.foldl Metrics.record hub.metrics := by
  cases h with
  | sent hc =>
    rw [sendEvents, hc]
    rfl
  | write hc hn | writeBroken hc hn =>
    rw [sendEvents_of_left hc hn]
    rfl
  | fail hc =>
    rw [sendEvents, hc]
    exact Hub.metrics_recordAll
  | _ hc =>
    rw [sendEvents, hc]
    rfl

theorem FeederStep.recorded (h : FeederStep station hub c hub' c')
    (hm : Membership joined left c.feeder) :
    c'.feeder.recorded (joined.or (c.feeder.joined? c'.feeder)).isSome =
      c.feeder.recorded joined.isSome ++ c.feedEvents := by
  cases h with
  | refuse hc =>
    rw [hc] at hm ⊢
    obtain ⟨rfl, -⟩ := hm.unjoined trivial
    rw [feedEvents, hc]
    rfl
  | abandon hc =>
    rw [hc] at hm ⊢
    obtain ⟨hj, -⟩ := hm.present _ rfl
    obtain ⟨seat, rfl, -⟩ := Option.map_eq_some_iff.mp hj
    rw [feedEvents, hc]
    rfl
  | read hc hr =>
    rcases consider_cases station _ with ⟨e, he⟩ | ⟨channels, he⟩ <;>
      rw [feedEvents, hc, he] <;> rfl
  | finish hc =>
    rw [feedEvents, hc, FeederPhase.recorded_over]
    simp [FeederPhase.joined?]
  | join hc | begin hc | nextPart hc | reply hc | replyBroken hc | linkUp hc _ | linkDown hc _
  | advanced hc _ | timedOut hc _ | stopped hc _ | copy hc _ | stale hc _ | queue hc _
  | overflow hc _ | acknowledge hc _ | violate hc _ | leave hc | untimed hc | record hc =>
    rw [feedEvents, hc]
    rfl
  | closeQueue hc | hangUp hc | joined hc _ | drain hc =>
    rw [feedEvents, hc]
    exact (List.append_nil _).symm
  | dismiss hc =>
    rw [feedEvents, hc]
    simp [FeederPhase.joined?, FeederPhase.recorded]

namespace Move

def feederEvents (m : Move) : List Event :=
  match m.turn with
  | .feed .. => m.before.feedEvents
  | .send .. => []

def senderEvents (m : Move) : List Event :=
  match m.turn with
  | .feed .. => []
  | .send .. => m.before.sendEvents

def events (m : Move) : List Event := m.feederEvents ++ m.senderEvents

end Move

structure Shut (c : Connection) : Prop where
  queue : c.feeder.IsSealed → c.queue.closed = true
  socket : c.hungUp = true → c.feeder.IsDown

namespace Shut

theorem accept (station : Station) (incoming : List Reading) : Shut (.accept station incoming) :=
  ⟨False.elim, nofun⟩

theorem closed_of_hungUp (h : Shut c) (hs : c.feeder.IsServing) (hu : c.hungUp = true) :
    c.queue.closed = true :=
  h.queue (FeederPhase.isSealed_of_isDown (h.socket hu) hs)

theorem refeed (h : Shut c) (hp : ¬ c.feeder.IsDown) (hu : c'.hungUp = c.hungUp)
    (hq : c'.feeder.IsSealed → c'.queue.closed = true) : Shut c' := by
  refine ⟨hq, fun hup => ?_⟩
  exact absurd (h.socket (hu ▸ hup)) hp

theorem keep (h : Shut c) (hq : c.queue.closed = true → c'.queue.closed = true)
    (hs : c'.feeder.IsSealed → c.feeder.IsSealed) (hd : c'.feeder.IsDown) : Shut c' :=
  ⟨fun hp => hq (h.queue (hs hp)), fun _ => hd⟩

end Shut

theorem FeederStep.shut (h : FeederStep station hub c hub' c') (hs : Shut c) : Shut c' := by
  cases h with
  | read hc hr =>
    rcases consider_cases station _ with ⟨e, he⟩ | ⟨channels, he⟩ <;>
      exact hs.refeed (by rw [hc]; exact id) rfl (by rw [he]; exact False.elim)
  | closeQueue hc => exact hs.refeed (by rw [hc]; exact id) rfl fun _ => rfl
  | hangUp hc =>
    have hq := hs.queue
    rw [hc] at hq
    exact ⟨fun _ => hq trivial, fun _ => trivial⟩
  | dismiss hc => exact ⟨False.elim, fun _ => trivial⟩
  | joined hc _ => exact hs.keep id (fun _ => by rw [hc]; trivial) trivial
  | drain hc => exact hs.keep (fun _ => rfl) (fun _ => by rw [hc]; trivial) trivial
  | @finish o hc =>
    refine hs.keep id ?_ trivial
    rw [hc]
    cases o <;> exact id
  | untimed hc | refuse hc | abandon hc | join hc | begin hc | nextPart hc | reply hc
  | replyBroken hc | linkUp hc _ | linkDown hc _ | advanced hc _ | timedOut hc _ | stopped hc _
  | copy hc _ | stale hc _ | queue hc _ | overflow hc _ | acknowledge hc _ | violate hc _
  | leave hc | record hc =>
    exact hs.refeed (by rw [hc]; exact id) rfl False.elim

theorem FeederStep.closed_queue (h : FeederStep station hub c hub' c')
    (hq : c.queue.closed = true) : c'.queue.closed = true := by
  cases h with
  | @queue seat g frame q hc hp | @overflow seat g frame q hc hp =>
    have hclosed := Queue.closed_push (q := c.queue) (a := frame)
    rw [hp] at hclosed
    exact hclosed.trans hq
  | closeQueue hc | drain hc => rfl
  | _ => exact hq

theorem SenderStep.closed_queue (h : SenderStep hub c hub' c') :
    c'.queue.closed = c.queue.closed := by
  cases h with
  | pop hc hq | closed hc hq | empty hc hq => rw [← c.queue.closed_popOrTimeOut, hq]
  | _ => rfl

theorem SenderStep.shut (h : SenderStep hub c hub' c') (hs : Shut c) : Shut c' := by
  have hfeeder := h.feeder
  have hclosed := h.closed_queue
  have hhung : c'.hungUp = c.hungUp := by cases h <;> rfl
  exact ⟨by rw [hfeeder, hclosed]; exact hs.queue, by rw [hfeeder, hhung]; exact hs.socket⟩

theorem FeederStep.sent (h : FeederStep station hub c hub' c') : c'.sent = c.sent := by
  cases h <;> rfl

theorem FeederStep.sender {reply : List UInt8} {frames : List Frame}
    (h : FeederStep station hub c hub' c') (hf : Flow reply frames c) :
    c'.sender = c.sender ∨ (c.sender = .absent ∧ c'.sender = .popping) := by
  cases h with
  | begin hc =>
    refine .inr ⟨hf.absent ?_, rfl⟩
    rw [hc]
    exact id
  | _ => exact .inl rfl

namespace Life

def feederLog (l : Life) : List Event := l.past.flatMap Move.feederEvents

def senderLog (l : Life) : List Event := l.past.flatMap Move.senderEvents

def log (l : Life) : List Event := l.past.flatMap Move.events

theorem log_perm (l : Life) : l.log.Perm (l.feederLog ++ l.senderLog) :=
  (List.flatMap_append_perm l.past Move.feederEvents Move.senderEvents).symm

/-- A write failed that the feeder and the client had nothing to do with: the queue and the socket
were open, and the fault was not that the client had left. -/
def Fails (l : Life) : Prop :=
  ∃ m ∈ l.past, ∃ f, m.failed? = some f ∧ m.before.queue.closed = false ∧
    m.before.hungUp = false ∧ f.isDisconnect = false

structure SenderLog (l : Life) (sizes : List Nat) (errors : List Event) : Prop where
  log : l.senderLog = sizes.map Event.sent ++ errors
  sent : l.present.sent = ⟨sizes.length, sizes.sum⟩
  early : ¬ l.present.sender.IsLate → errors = []
  blamed : errors = [] ∨ errors = [.sendFailed] ∧ l.Fails
  failing : ∀ f, l.present.sender = .failing f → ∃ m ∈ l.past, m.failed? = some f ∧
    (m.before.queue.closed = true → l.present.queue.closed = true) ∧
    (m.before.hungUp = true → m.before.queue.closed = true)

variable {l : Life} {hub hub' : Hub} {peer : Acceptance} {c : Connection} {sizes : List Nat}
  {errors : List Event}

theorem feederLog_feed :
    (l.grow (.feed hub peer) c).feederLog = l.feederLog ++ l.present.feedEvents := by
  simp [feederLog, grow, Move.feederEvents]

theorem feederLog_send : (l.grow (.send hub peer) c).feederLog = l.feederLog := by
  simp [feederLog, grow, Move.feederEvents]

theorem senderLog_feed : (l.grow (.feed hub peer) c).senderLog = l.senderLog := by
  simp [senderLog, grow, Move.senderEvents]

theorem senderLog_send :
    (l.grow (.send hub peer) c).senderLog = l.senderLog ++ l.present.sendEvents := by
  simp [senderLog, grow, Move.senderEvents]

theorem Fails.grow (h : l.Fails) (t : Turn) : (l.grow t c).Fails := by
  obtain ⟨m, hm, h⟩ := h
  exact ⟨m, List.mem_append_left _ hm, h⟩

theorem feederLog_eq (station : Station) (incoming : List Reading) (turns : List Turn) :
    let l := run station incoming turns
    l.feederLog = l.present.feeder.recorded l.joined?.isSome := by
  refine (run_induction (P := fun l => Membership l.joined? l.left? l.present.feeder ∧
    l.feederLog = l.present.feeder.recorded l.joined?.isSome) ⟨.reading, rfl⟩ ?_ ?_ turns).2
  · intro l hub peer hub' c ⟨hm, hl⟩ h
    rw [joined?_grow, left?_grow, feederLog_feed, hl]
    exact ⟨h.membership hm, (h.recorded hm).symm⟩
  · intro l hub peer hub' c ⟨hm, hl⟩ h
    rw [joined?_grow, left?_grow, feederLog_send, present_grow, h.feeder, FeederPhase.joined?_self,
      FeederPhase.left?_self, Option.or_none, Option.or_none]
    exact ⟨hm, hl⟩

namespace SenderLog

theorem start (station : Station) (incoming : List Reading) :
    SenderLog { present := .accept station incoming } [] [] :=
  ⟨rfl, rfl, fun _ => rfl, .inl rfl, nofun⟩

theorem feed {station : Station} {reply : List UInt8} {frames : List Frame}
    (h : l.SenderLog sizes errors) (hf : Flow reply frames l.present)
    (hs : FeederStep station hub l.present hub' c) :
    (l.grow (.feed hub peer) c).SenderLog sizes errors := by
  constructor
  case log => rw [senderLog_feed, h.log]
  case sent => rw [present_grow, hs.sent, h.sent]
  case early =>
    intro hl
    rcases hs.sender hf with he | ⟨ha, -⟩
    · rw [present_grow, he] at hl
      exact h.early hl
    · exact h.early (by rw [ha]; exact id)
  case blamed => exact h.blamed.imp_right (And.imp_right fun hb => hb.grow _)
  case failing =>
    intro f hc
    rw [present_grow] at hc
    rcases hs.sender hf with he | ⟨-, hp⟩
    · obtain ⟨m, hm, hfail, hq, hu⟩ := h.failing f (he ▸ hc)
      exact ⟨m, List.mem_append_left _ hm, hfail, fun hq' => hs.closed_queue (hq hq'), hu⟩
    · rw [hp] at hc
      cases hc

theorem quiet (h : l.SenderLog sizes errors) (hev : l.present.sendEvents = [])
    (hsent : c.sent = l.present.sent) (hl : ¬ l.present.sender.IsLate ∨ c.sender.IsLate)
    (hn : ∀ f, c.sender ≠ .failing f) : (l.grow (.send hub peer) c).SenderLog sizes errors := by
  constructor
  case log => rw [senderLog_send, hev, List.append_nil, h.log]
  case sent => rw [present_grow, hsent, h.sent]
  case early =>
    intro hc
    rcases hl with hl | hl
    · exact h.early hl
    · exact absurd hl hc
  case blamed => exact h.blamed.imp_right (And.imp_right fun hb => hb.grow _)
  case failing => exact fun f hc => absurd hc (hn f)

theorem sent_one {size : Nat} (h : l.SenderLog sizes errors)
    (hc : l.present.sender = .writing size []) (hsender : c.sender = .popping)
    (hsent : c.sent = ⟨l.present.sent.frames + 1, l.present.sent.bytes + size⟩) :
    (l.grow (.send hub peer) c).SenderLog (sizes ++ [size]) [] := by
  have herrors : errors = [] := h.early (by rw [hc]; exact id)
  have hev : l.present.sendEvents = [.sent size] := by
    rw [sendEvents, hc]
  constructor
  case log => rw [senderLog_send, hev, h.log, herrors]; simp
  case sent => rw [present_grow, hsent, h.sent]; simp
  case early => exact fun _ => rfl
  case blamed => exact .inl rfl
  case failing =>
    intro f hf
    rw [present_grow, hsender] at hf
    cases hf

theorem broken {size : Nat} {left : List UInt8} {f : Fault} (h : l.SenderLog sizes errors)
    (hshut : Shut l.present) (hserving : l.present.feeder.IsServing)
    (hc : l.present.sender = .writing size left) (hn : left ≠ []) :
    (l.grow (.send hub peer) { l.present with sender := .failing f }).SenderLog sizes errors := by
  constructor
  case log => rw [senderLog_send, sendEvents_of_left hc hn, List.append_nil, h.log]
  case sent => exact h.sent
  case early => exact fun _ => h.early (by rw [hc]; exact id)
  case blamed => exact h.blamed.imp_right (And.imp_right fun hb => hb.grow _)
  case failing =>
    intro f' hf
    cases hf
    refine ⟨_, List.mem_append_right _ (List.mem_singleton_self _), ?_, id, ?_⟩
    · rw [Move.failed?, hc]
      rfl
    · exact hshut.closed_of_hungUp hserving

theorem fail {f : Fault} (h : l.SenderLog sizes errors) (hc : l.present.sender = .failing f) :
    (l.grow (.send hub peer) { l.present with sender := .unlinking }).SenderLog sizes
      (l.present.failureEvent f) := by
  have herrors : errors = [] := h.early (by rw [hc]; exact id)
  have hev : l.present.sendEvents = l.present.failureEvent f := by
    rw [sendEvents, hc]
  constructor
  case log => rw [senderLog_send, hev, h.log, herrors, List.append_nil]
  case sent => exact h.sent
  case early => exact fun hl => absurd trivial hl
  case blamed =>
    unfold failureEvent
    split_ifs with hcond
    · exact .inl rfl
    · -- The queue is open now, so it was open when the write failed, and the socket with it.
      right
      obtain ⟨hopen, hdisconnect⟩ : l.present.queue.closed = false ∧ f.isDisconnect = false := by
        simpa using hcond
      obtain ⟨m, hm, hfail, hq, hu⟩ := h.failing f hc
      have hclosed : m.before.queue.closed = false := by
        rw [← Bool.not_eq_true]
        intro hm'
        rw [hq hm'] at hopen
        cases hopen
      have hhung : m.before.hungUp = false := by
        rw [← Bool.not_eq_true]
        intro hm'
        rw [hu hm'] at hclosed
        cases hclosed
      exact ⟨rfl, m, List.mem_append_left _ hm, f, hfail, hclosed, hhung, hdisconnect⟩
  case failing => exact fun f' hf => nomatch hf

theorem send {reply : List UInt8} {frames : List Frame} (h : l.SenderLog sizes errors)
    (hf : Flow reply frames l.present) (hshut : Shut l.present)
    (hs : SenderStep hub l.present hub' c) :
    ∃ sizes errors, (l.grow (.send hub peer) c).SenderLog sizes errors := by
  cases hs with
  | pop hc _ | closed hc _ | empty hc _ | stop hc _ | resume hc _ =>
    exact ⟨_, _, h.quiet (by rw [sendEvents, hc]) rfl (.inl (by rw [hc]; exact id)) nofun⟩
  | write hc hn =>
    exact ⟨_, _, h.quiet (sendEvents_of_left hc hn) rfl (.inl (by rw [hc]; exact id)) nofun⟩
  | sent hc => exact ⟨_, _, h.sent_one hc rfl rfl⟩
  | writeBroken hc hn =>
    exact ⟨_, _, h.broken hshut (hf.serving (by simp [hc])) hc hn⟩
  | fail hc => exact ⟨_, _, h.fail hc⟩
  | unlink hc => exact ⟨_, _, h.quiet (by rw [sendEvents, hc]) rfl (.inr trivial) nofun⟩

end SenderLog

theorem exists_senderLog (station : Station) (incoming : List Reading) (turns : List Turn) :
    ∃ sizes errors, (run station incoming turns).SenderLog sizes errors := by
  refine (run_induction (P := fun l => l.Balance station ∧ Shut l.present ∧
    ∃ sizes errors, l.SenderLog sizes errors) ?_ ?_ ?_ turns).2.2
  · exact ⟨.start station incoming, .accept station incoming, [], [], .start station incoming⟩
  · intro l hub peer hub' c ⟨hb, hshut, sizes, errors, hl⟩ h
    exact ⟨hb.feed h, h.shut hshut, sizes, errors, hl.feed hb.flow h⟩
  · intro l hub peer hub' c ⟨hb, hshut, sizes, errors, hl⟩ h
    exact ⟨hb.send h, h.shut hshut, hl.send hb.flow hshut h⟩

/-- What a connection has recorded when it is over, by its report if it has one. -/
structure Settled (l : Life) : Prop where
  accepted : tally Counter.connectionsAccepted.weight l.log = 0
  published : tally Counter.generationsPublished.weight l.log = 0
  handshake : tally Counter.handshakeFailures.weight l.log + l.joined?.toList.length = 1
  overflow : tally Counter.overflowDrops.weight l.log =
    (l.present.feeder.report?.map fun p => if p.reason.isOverflow then 1 else 0).getD 0
  violated : tally Counter.invariantViolations.weight l.log =
    (l.present.feeder.report?.map fun p => if p.reason.isViolation then 1 else 0).getD 0
  frames : tally Counter.framesSent.weight l.log =
    (l.present.feeder.report?.map fun p => p.sender.frames).getD 0
  bytes : tally Counter.bytesSent.weight l.log =
    (l.present.feeder.report?.map fun p => p.sender.bytes).getD 0
  errors : tally Counter.sendErrors.weight l.log = 0 ∨
    tally Counter.sendErrors.weight l.log = 1 ∧ l.Fails
  closed : tally Event.closings l.log = 1

theorem tally_sent (w : Event → Nat) (sizes : List Nat) :
    tally w (sizes.map Event.sent) = (sizes.map fun n => w (.sent n)).sum := by
  rw [tally, List.map_map]
  rfl

theorem Balance.sent_of_over {o : ConnectionOutcome} (h : l.Balance station)
    (ho : l.present.feeder = .over o) :
    l.present.sent = (l.present.feeder.report?.map (·.sender)).getD {} := by
  obtain ⟨done, held, items, hp⟩ := h.parts
  cases o with
  | refused e =>
    have ha : l.present.sender = .absent := h.flow.absent (by rw [ho]; exact id)
    have hsending := h.flow.sending
    have hall := hp.all
    rw [ha] at hsending
    rw [hsending.1, List.append_assoc] at hall
    obtain ⟨rfl, -⟩ := List.nil_eq_append_iff.mp hall
    rw [hp.sent, ho]
    rfl
  | served report =>
    have hleaves := hp.leaves
    rw [Leaves, ho] at hleaves
    rw [ho]
    exact hleaves.2.1.symm

theorem tally_log (h : l.SenderLog sizes errors) (w : Event → Nat) :
    tally w l.log =
      tally w l.feederLog + (sizes.map fun n => w (.sent n)).sum + tally w errors := by
  rw [Metrics.tally_perm l.log_perm, Metrics.tally_append, h.log, Metrics.tally_append, tally_sent,
    Nat.add_assoc]

namespace SenderLog

theorem tally_errors (h : l.SenderLog sizes errors) {w : Event → Nat} (hw : w .sendFailed = 0) :
    tally w errors = 0 := by
  rcases h.blamed with he | ⟨he, -⟩
  · rw [he, Metrics.tally_nil]
  · rw [he, Metrics.tally_cons, hw, Metrics.tally_nil]

theorem sendErrors (h : l.SenderLog sizes errors)
    (hf : tally Counter.sendErrors.weight l.feederLog = 0) :
    tally Counter.sendErrors.weight l.log = 0 ∨
      tally Counter.sendErrors.weight l.log = 1 ∧ l.Fails := by
  have hsum : (sizes.map fun n => Counter.sendErrors.weight (.sent n)).sum = 0 := by
    simp [Counter.weight]
  rw [tally_log h, hf, hsum]
  rcases h.blamed with he | ⟨he, hfails⟩
  · exact .inl (by rw [he]; rfl)
  · exact .inr ⟨by rw [he]; rfl, hfails⟩

end SenderLog

theorem settled_of_served {report : ConnectionReport} (hs : l.SenderLog sizes errors)
    (ho : l.present.feeder = .over (.served report))
    (hf : l.feederLog = closeEvent report.reason ++ [.closed])
    (hj : l.joined? ≠ none) (hsent : report.sender = ⟨sizes.length, sizes.sum⟩) : l.Settled := by
  obtain ⟨seat, hseat⟩ := Option.ne_none_iff_exists'.mp hj
  have hreport : l.present.feeder.report? = some report := by
    rw [ho]
    rfl
  have hlog : ∀ w : Event → Nat, w .sendFailed = 0 → tally w l.log =
      tally w (closeEvent report.reason ++ [.closed]) + (sizes.map fun n => w (.sent n)).sum := by
    intro w hw
    rw [tally_log hs, hf, hs.tally_errors hw, Nat.add_zero]
  constructor
  case accepted | published =>
    rw [hlog _ rfl]
    cases report.reason <;> simp [closeEvent, Counter.weight]
  case handshake =>
    rw [hlog _ rfl, hseat]
    cases report.reason <;> simp [closeEvent, Counter.weight]
  case overflow =>
    rw [hlog _ rfl, hreport]
    cases hr : report.reason <;> simp [closeEvent, Counter.weight, CloseReason.isOverflow, hr]
  case violated =>
    rw [hlog _ rfl, hreport]
    cases hr : report.reason <;> simp [closeEvent, Counter.weight, CloseReason.isViolation, hr]
  case frames =>
    rw [hlog _ rfl, hreport]
    cases report.reason <;> simp [closeEvent, Counter.weight, hsent]
  case bytes =>
    rw [hlog _ rfl, hreport]
    cases report.reason <;> simp [closeEvent, Counter.weight, hsent]
  case errors =>
    refine hs.sendErrors ?_
    rw [hf]
    cases report.reason <;> rfl
  case closed =>
    rw [hlog _ rfl]
    cases report.reason <;> simp [closeEvent, Event.closings]

theorem settled_of_refused {e : ConnectionError} (hs : l.SenderLog sizes errors)
    (ho : l.present.feeder = .over (.refused e))
    (hf : l.feederLog = (if l.joined?.isSome then [] else [.handshakeFailed]) ++ [.closed])
    (hsent : SenderStats.mk 0 0 = ⟨sizes.length, sizes.sum⟩) : l.Settled := by
  have hreport : l.present.feeder.report? = none := by
    rw [ho]
    rfl
  obtain ⟨hlength, hsum⟩ := SenderStats.mk.inj hsent
  obtain rfl := List.eq_nil_of_length_eq_zero hlength.symm
  have hlog : ∀ w : Event → Nat, w .sendFailed = 0 → tally w l.log =
      tally w ((if l.joined?.isSome then [] else [.handshakeFailed]) ++ [.closed]) := by
    intro w hw
    rw [tally_log hs, hf, hs.tally_errors hw]
    rfl
  constructor
  case accepted | published | handshake =>
    rw [hlog _ rfl]
    cases l.joined? <;> rfl
  case errors =>
    refine hs.sendErrors ?_
    rw [hf]
    cases l.joined? <;> rfl
  case overflow | violated | frames | bytes =>
    rw [hlog _ rfl, hreport]
    cases l.joined? <;> rfl
  case closed =>
    rw [hlog _ rfl]
    cases l.joined? <;> rfl

theorem settled (station : Station) (incoming : List Reading) (turns : List Turn)
    {o : ConnectionOutcome} (ho : (run station incoming turns).present.feeder = .over o) :
    (run station incoming turns).Settled := by
  obtain ⟨sizes, errors, hs⟩ := exists_senderLog station incoming turns
  have hm := (membership station incoming turns).serving
  have hf := feederLog_eq station incoming turns
  have hsent := (balance station incoming turns).sent_of_over ho
  simp only [ho] at hm hf hsent
  rw [hs.sent] at hsent
  cases o with
  | refused e => exact settled_of_refused hs ho hf hsent.symm
  | served report => exact settled_of_served hs ho hf (hm trivial) hsent.symm

end Life

end Connection
end SampleCast
