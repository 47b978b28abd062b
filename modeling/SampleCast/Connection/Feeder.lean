import SampleCast.Connection.Basic

/-! The feeder of a connection.
A request that cannot be read, or that asks for a channel that does not exist, is refused without a
reply, and so is every request if no time is given to read it. Otherwise the feeder joins the
barrier, replies, and serves one generation after another: look at the link, wait for a generation,
copy the block, queue it, acknowledge it. However the connection ends, the feeder leaves the barrier
before it waits for the sender. -/

namespace SampleCast.Connection

def consider (station : Station) (r : Except WireError Request) : FeederPhase :=
  match r with
  | .error e => .refusing (.request e)
  | .ok request =>
    match request.validate station.channelCount with
    | .error e => .refusing (.request e)
    | .ok _ => .joining request.channels

def closeEvent : CloseReason → List Metrics.Event
  | .overflow _ => [.overflowed]
  | .violated _ | .stale .. => [.violated]
  | .shutdown | .linkDown => []

def inspect (slot : Slot) (seat : Seat) (generation : Nat) : FeederPhase :=
  match slot.copy seat.channels with
  | none => .closing seat (.stale generation slot.generation) .leaving
  | some (published, frame) =>
    if published = generation then .queueing seat generation frame
    else .closing seat (.stale generation published) .leaving

def report (c : Connection) (seat : Seat) (reason : CloseReason) (discarded : Nat) :
    ConnectionReport :=
  ⟨seat.worker, seat.channels, reason, seat.acknowledged, c.sent, discarded⟩

def close (hub : Hub) (c : Connection) (seat : Seat) (reason : CloseReason) :
    Closing → Option (Hub × Connection)
  | .leaving =>
    some (hub.leave seat.worker, { c with feeder := .closing seat reason .recording })
  | .recording =>
    some ((closeEvent reason).foldl Hub.record hub,
      { c with feeder := .closing seat reason .sealing })
  | .sealing =>
    some (hub, { c with queue := c.queue.close, feeder := .closing seat reason .hangingUp })
  | .hangingUp => some (hub, { c with hungUp := true, feeder := .closing seat reason .joining })
  | .joining =>
    if c.sender = .exited then some (hub, { c with feeder := .closing seat reason .draining })
    else none
  | .draining =>
    let (discarded, q) := c.queue.drain
    some (hub, { c with
      queue := q
      feeder := .returned (.served (c.report seat reason discarded)) })

/-- One action of the feeder, or `none` if it has to wait for the sender or is done. `peer` is the
client's side of the write that the action may make. -/
def feed (station : Station) (hub : Hub) (peer : Acceptance) (c : Connection) :
    Option (Hub × Connection) :=
  match c.feeder with
  | .reading =>
    if station.settings.handshakeTimeout = 0 then
      some (hub, { c with feeder := .refusing (.socket .zeroTimeout) })
    else
      let (r, rest) := Request.read station.requestLimit c.incoming
      some (hub, { c with incoming := rest, feeder := consider station r })
  | .refusing e => some (hub.record .handshakeFailed, { c with feeder := .hangingUp e })
  | .joining channels =>
    let ((worker, generation), barrier) := hub.barrier.join
    some ({ hub with barrier }, { c with
      feeder := .replying ⟨worker, channels, generation, 0⟩ (Reply.parts ⟨station.rate⟩) })
  | .replying seat [] => some (hub, { c with sender := .popping, feeder := .checking seat })
  | .replying seat ([] :: parts) => some (hub, { c with feeder := .replying seat parts })
  | .replying seat ((b :: bs) :: parts) =>
    match peer.settle (b :: bs) with
    | .more taken left =>
      some (hub, { c with
        output := c.output ++ taken
        feeder := .replying seat (left :: parts) })
    | .broken f => some (hub, { c with feeder := .abandoning seat f })
  | .abandoning seat f =>
    some (hub.leave seat.worker, { c with feeder := .hangingUp (.request (.io f)) })
  | .checking seat =>
    some (hub, { c with
      feeder := if c.linkUp then .waiting seat else .closing seat .linkDown .leaving })
  | .waiting seat =>
    some (hub, { c with
      feeder :=
        match hub.barrier.advanceOrTimeOut seat.lastSeen with
        | .advanced generation => .copying seat generation
        | .timedOut => .checking seat
        | .stopped => .closing seat .shutdown .leaving })
  | .copying seat generation => some (hub, { c with feeder := inspect hub.slot seat generation })
  | .queueing seat generation frame =>
    match c.queue.push frame with
    | (.accepted, q) => some (hub, { c with queue := q, feeder := .acknowledging seat generation })
    | (.overflow, q) =>
      some (hub, { c with queue := q, feeder := .closing seat (.overflow generation) .leaving })
  | .acknowledging seat generation =>
    match hub.barrier.acknowledge seat.worker generation with
    | (.ok _, barrier) =>
      let seat := { seat with lastSeen := generation, acknowledged := seat.acknowledged + 1 }
      some ({ hub with barrier }, { c with feeder := .checking seat })
    | (.error e, barrier) =>
      some ({ hub with barrier }, { c with feeder := .closing seat (.violated e) .leaving })
  | .closing seat reason stage => close hub c seat reason stage
  | .hangingUp e => some (hub, { c with hungUp := true, feeder := .returned (.refused e) })
  | .returned outcome => some (hub.record .closed, { c with feeder := .over outcome })
  | .over _ => none

def feederIdle (hub : Hub) (c : Connection) : Bool :=
  match c.feeder with
  | .waiting seat => c.linkUp && (hub.barrier.advance seat.lastSeen).isNone
  | .closing _ _ .joining => c.sender != .exited
  | .over _ => true
  | _ => false

end SampleCast.Connection
