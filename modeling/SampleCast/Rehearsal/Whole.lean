import SampleCast.Rehearsal.Single
import SampleCast.Producer.Run

/-! A whole server, driven by a script.
Each call of the source is one beat of the script: some clients connect, and then the source
delivers. Before every call all connections have sent what was published, and every client reads
until its stream ends. A client that cannot connect ends the rehearsal. -/

namespace SampleCast.Rehearsal

structure Beat where
  arrivals : List (List UInt32) := []
  delivery : Delivery

abbrev Stage := Broadcast (List Delivery)

def dismiss (station : Station) (hub : Hub) (c : Connection) : Hub × Connection :=
  if c.hasReturned then (c.feed station hub Listener.everything).getD (hub, c) else (hub, c)

def settleAll (station : Station) : Hub → List Connection → Hub × List Connection
  | hub, [] => (hub, [])
  | hub, c :: more =>
    let (hub, c) := c.settle station .reads hub
    let (hub, c) := dismiss station hub c
    let (hub, more) := settleAll station hub more
    (hub, c :: more)

def Stage.settle (station : Station) (b : Stage) : Stage :=
  let (hub, connections) := settleAll station b.hub b.connections
  { b with hub, connections }

def Stage.welcome (station : Station) (b : Stage) (channels : List UInt32) : Stage :=
  let request := Request.encode ⟨channels⟩
  let listening := if b.acceptor = .checking then (b.look).getD b else b
  Stage.settle station ((listening.arrive station [.chunk request]).getD listening)

def Stage.close (station : Station) (b : Stage) : Stage :=
  let idle := if b.acceptor = .listening then (b.look).getD b else b
  Stage.settle station ((idle.look).getD idle)

structure Whole where
  calls : List Producer.Call
  stage : Stage

def arrive (station : Station) (dial : Except Fault Unit) (arrivals : List (List UInt32))
    (b : Stage) : Except Fault Stage :=
  match arrivals, dial with
  | [], _ => .ok b
  | _, .error f => .error f
  | _, .ok _ => .ok (arrivals.foldl (Stage.welcome station) b)

/-- Acts until the producer has ended. `arrivals` holds the clients of the calls to come. -/
def play (source : SampleSource (List Delivery)) (station : Station) (dial : Except Fault Unit) :
    Nat → List (List (List UInt32)) → Stage → Except Fault Whole
  | 0, _, b => .ok ⟨[], b⟩
  | n + 1, arrivals, b => do
    match b.producer.phase with
    | .ended _ => .ok ⟨[], b.close station⟩
    | .acquiring =>
      let b ← arrive station dial (arrivals.headD []) (b.settle station)
      let call := (b.producer.call? station b.hub).toList
      let r ← play source station dial n arrivals.tail ((b.step source station .produce).getD b)
      .ok ⟨call ++ r.calls, r.stage⟩
    | _ =>
      let b := b.settle station
      play source station dial n arrivals ((b.step source station .produce).getD b)

/-- A server with a scripted source. `refusal` is what the system has against its address. -/
def whole (settings : ServerSettings) (channels rate : UInt32) (refusal : Option Fault)
    (dial : Except Fault Unit) (script : List Beat) :
    Except BroadcastError (Except Fault Whole) := do
  let source := SampleSource.scripted channels rate
  let station ← Station.bind settings source refusal
  .ok (play source station dial (Producer.actionsFor (script.length + 1))
    (script.map (·.arrivals)) (.start station (script.map (·.delivery))))

structure Visit where
  subscribed : Except WireError Subscriber
  frames : List Frame
  fault : Option WireError
  received : Nat

def visit (channels : List UInt32) (c : Connection) : Visit :=
  let r := (Subscriber.subscribe channels ⟨[.chunk c.output], []⟩).result
  match r with
  | .error _ => ⟨r, [], none, 0⟩
  | .ok s =>
    let (frames, e, after) := s.readAll
    ⟨r, frames, e, after.received⟩

end SampleCast.Rehearsal
