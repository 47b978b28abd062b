import SampleCast.Hub
import SampleCast.Queue
import SampleCast.Wire.Message
import SampleCast.Wire.Subscription

/-! Connections.
Every connection has two workers. The feeder reads the request, joins the barrier, and then puts the
requested channels of every published block into the queue of the connection and acknowledges the
block. The sender takes the blocks out of the queue and writes them to the client. They share the
queue and the link, which the sender takes down when it cannot write any more.

A client that does not keep up fills its queue, and the feeder then closes the connection without
acknowledging the block that found no room. -/

namespace SampleCast

inductive CloseReason
  | shutdown
  | overflow (generation : Nat)
  | linkDown
  | violated (cause : AckError)
  | stale (expected published : Nat)
  deriving DecidableEq, Inhabited

inductive ConnectionError
  | request (e : WireError)
  | socket (fault : Fault)
  deriving DecidableEq, Inhabited

def ConnectionError.message : ConnectionError → String
  | .request e => s!"handshake failed: {e.message}"
  | .socket f => s!"socket setup failed: {f.text}"

structure Seat where
  worker : WorkerId
  channels : List UInt32
  lastSeen : Nat
  acknowledged : Nat := 0
  deriving DecidableEq, Inhabited

/-- Counted without bound. Words of 64 bits count alike below 2^64 bytes; the counters of the
server, which are words, get the same amounts. -/
structure SenderStats where
  frames : Nat := 0
  bytes : Nat := 0
  deriving DecidableEq, Inhabited

structure ConnectionReport where
  worker : WorkerId
  channels : List UInt32
  reason : CloseReason
  acknowledged : Nat
  sender : SenderStats
  discarded : Nat
  deriving DecidableEq, Inhabited

inductive ConnectionOutcome
  | refused (e : ConnectionError)
  | served (report : ConnectionReport)
  deriving DecidableEq, Inhabited

inductive Closing
  | leaving
  | recording
  | sealing
  | hangingUp
  | joining
  | draining
  deriving DecidableEq, Inhabited

inductive FeederPhase
  | reading
  | refusing (e : ConnectionError)
  | joining (channels : List UInt32)
  | replying (seat : Seat) (parts : List (List UInt8))
  | abandoning (seat : Seat) (fault : Fault)
  | checking (seat : Seat)
  | waiting (seat : Seat)
  | copying (seat : Seat) (generation : Nat)
  | queueing (seat : Seat) (generation : Nat) (frame : Frame)
  | acknowledging (seat : Seat) (generation : Nat)
  | closing (seat : Seat) (reason : CloseReason) (stage : Closing)
  | hangingUp (e : ConnectionError)
  | returned (outcome : ConnectionOutcome)
  | over (outcome : ConnectionOutcome)
  deriving DecidableEq, Inhabited

inductive SenderPhase
  | absent
  | popping
  | polling
  | writing (size : Nat) (left : List UInt8)
  | failing (fault : Fault)
  | unlinking
  | exited
  deriving DecidableEq, Inhabited

structure Connection where
  incoming : List Reading
  queue : Queue Frame
  output : List UInt8 := []
  feeder : FeederPhase := .reading
  sender : SenderPhase := .absent
  sent : SenderStats := {}
  linkUp : Bool := true
  hungUp : Bool := false
  deriving DecidableEq, Inhabited

namespace Connection

def accept (station : Station) (incoming : List Reading) : Connection :=
  { incoming, queue := .ofCapacity station.settings.bufferCapacity.toNat }

def outcome? (c : Connection) : Option ConnectionOutcome :=
  match c.feeder with
  | .over o => some o
  | _ => none

end Connection
end SampleCast
