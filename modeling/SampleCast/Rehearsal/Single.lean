import SampleCast.Broadcast.Basic
import SampleCast.Subscriber

/-! One connection, driven by hand.
A rehearsal takes the place of the producer. It publishes blocks and opens generations as its cues
say, and after every cue lets both workers of the connection act until neither can. The client reads
everything, stops reading after the reply, or leaves after the reply. -/

namespace SampleCast

inductive Listener
  | reads
  | stalls
  | leaves
  deriving DecidableEq, Inhabited

namespace Listener

def everything : Acceptance := .upTo 0x3fffffffffffffff

def gone : Acceptance := .fault ⟨.brokenPipe, "Broken pipe (os error 32)"⟩

/-- What the client's side does with a block, or `none` while the write blocks. A connection that
was hung up takes nothing. -/
def acceptance (l : Listener) (c : Connection) : Option Acceptance :=
  if c.hungUp then some gone
  else
    match l with
    | .reads => some everything
    | .stalls => none
    | .leaves => some gone

end Listener

namespace Connection

def isWriting (c : Connection) : Bool :=
  match c.sender with
  | .writing _ (_ :: _) => true
  | _ => false

def hasReturned (c : Connection) : Bool :=
  match c.feeder with
  | .returned _ | .over _ => true
  | _ => false

def act (station : Station) (l : Listener) (hub : Hub) (c : Connection) :
    Option (Hub × Connection) :=
  if c.hasReturned then none
  else if !c.feederIdle hub then c.feed station hub Listener.everything
  else if c.senderIdle hub then none
  else if c.isWriting then (l.acceptance c).bind (c.send hub ·)
  else c.send hub Listener.everything

def actAll (station : Station) (l : Listener) : Nat → Hub → Connection → Hub × Connection
  | 0, hub, c => (hub, c)
  | n + 1, hub, c =>
    match c.act station l hub with
    | none => (hub, c)
    | some (hub, c) => actAll station l n hub c

/-- Acts until neither worker can. Between two generations a connection makes at most four actions
for each queued block and some forty others. -/
def settle (station : Station) (l : Listener) (hub : Hub) (c : Connection) : Hub × Connection :=
  actAll station l (40 + 4 * (c.queue.count + 1)) hub c

end Connection

namespace Rehearsal

inductive Cue
  | publish (block : Slot)
  | advance
  | kick
  deriving DecidableEq, Inhabited

structure Scene where
  hub : Hub
  connection : Connection
  seen : Nat := 0

structure Played where
  cue : Cue
  opened : Option Nat
  left : Bool
  received : Option Frame
  barrier : Barrier

def Scene.settle (station : Station) (l : Listener) (s : Scene) : Scene :=
  let (hub, connection) := s.connection.settle station l s.hub
  { s with hub, connection }

def Scene.next (s : Scene) : Option Frame × Scene :=
  let unseen := s.connection.output.drop s.seen
  let step := Decoder.read (.ofLimit Decoder.defaultLimit) [.chunk unseen]
  match step.result with
  | .ok (some f) =>
    let left := (Reading.bytes step.rest).length
    (some f, { s with seen := s.connection.output.length - left })
  | _ => (none, s)

def Scene.play (station : Station) (l : Listener) (s : Scene) : Cue → Played × Scene
  | .publish block =>
    let hub := (s.hub.publish block.generation block.frame).advance
    let (received, after) := (Scene.settle station l { s with hub }).next
    (⟨.publish block, some hub.barrier.generation, false, received, after.hub.barrier⟩, after)
  | .advance =>
    let hub := s.hub.advance
    let after := Scene.settle station l { s with hub }
    (⟨.advance, some hub.barrier.generation, false, none, after.hub.barrier⟩, after)
  | .kick =>
    let left := s.hub.barrier.alive.head?
    let hub := left.elim s.hub s.hub.leave
    (⟨.kick, none, left.isSome, none, hub.barrier⟩, { s with hub })

def Scene.playAll (station : Station) (l : Listener) : Scene → List Cue → List Played × Scene
  | s, [] => ([], s)
  | s, cue :: more =>
    if s.connection.hasReturned then ([], s)
    else
      let (played, s) := s.play station l cue
      let (others, s) := playAll station l s more
      (played :: others, s)

structure Single where
  reply : Option Reply
  played : List Played
  outcome : Option ConnectionOutcome
  hub : Hub

/-- A connection that is still open after the last cue is closed by stopping the server. -/
def single (station : Station) (l : Listener) (request : List UInt8) (cues : List Cue) : Single :=
  let opened := Scene.settle station .reads
    { hub := {}, connection := .accept station [.chunk request] }
  let reply := (Reply.read [.chunk opened.connection.output]).1.toOption
  let start := { opened with seen := opened.connection.output.length }
  let (played, s) := start.playAll station l cues
  let s := if s.connection.hasReturned then s else { s with hub := s.hub.stop }.settle station l
  let outcome :=
    match s.connection.feeder with
    | .returned o | .over o => some o
    | _ => none
  ⟨reply, played, outcome, s.hub⟩

end Rehearsal
end SampleCast
