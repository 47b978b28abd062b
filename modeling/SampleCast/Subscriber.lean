import SampleCast.Wire.Decoder
import SampleCast.Wire.Subscription

/-! Subscribers.
A subscriber connects to a server, sends its request, reads the reply and then reads one frame after
another. A frame with another number of channels than it asked for is an error, and is counted as
decoded all the same. -/

namespace SampleCast

structure Socket where
  incoming : List Reading
  peer : List Acceptance := []
  deriving DecidableEq, Inhabited

structure Subscriber where
  channels : List UInt32
  rate : UInt32
  decoder : Decoder := .ofLimit Decoder.defaultLimit
  incoming : List Reading

namespace Subscriber

structure Subscribed where
  result : Except WireError Subscriber
  sent : List UInt8

def subscribe (channels : List UInt32) (socket : Socket) : Subscribed :=
  let w := Request.write ⟨channels⟩ socket.peer
  match w.fault with
  | some f => ⟨.error (.io f), w.taken⟩
  | none =>
    match Reply.read socket.incoming with
    | (.error e, _) => ⟨.error e, w.taken⟩
    | (.ok reply, rest) =>
      ⟨.ok { channels, rate := reply.rate, incoming := rest }, w.taken⟩

def connect (channels : List UInt32) : Except Fault Socket → Subscribed
  | .error f => ⟨.error (.io f), []⟩
  | .ok socket => subscribe channels socket

def limit (s : Subscriber) (size : Nat) : Subscriber := { s with decoder := .ofLimit size }

/-- Ends the stream. What has arrived, the first `arrived` items, can still be read. -/
def interrupt (s : Subscriber) (arrived : Nat) : Subscriber :=
  { s with incoming := s.incoming.take arrived }

def received (s : Subscriber) : Nat := s.decoder.framesDecoded

def read (s : Subscriber) : Except WireError (Option Frame) × Subscriber :=
  let step := s.decoder.read s.incoming
  let after := { s with decoder := step.decoder, incoming := step.rest }
  match step.result with
  | .ok (some f) =>
    if f.channelCount.toNat = s.channels.length then (.ok (some f), after)
    else
      (.error (.malformed (.unsubscribed f.channelCount.toNat s.channels.length)), after)
  | other => (other, after)

/-- All frames up to the end of the stream or an error. Every frame takes at least one byte, so the
number of bytes bounds the number of reads. -/
def readAll (s : Subscriber) : List Frame × Option WireError × Subscriber :=
  go ((Reading.bytes s.incoming).length + 1) s
where
  go : Nat → Subscriber → List Frame × Option WireError × Subscriber
    | 0, s => ([], none, s)
    | n + 1, s =>
      match s.read with
      | (.error e, s) => ([], some e, s)
      | (.ok none, s) => ([], none, s)
      | (.ok (some f), s) =>
        let (frames, e, s) := go n s
        (f :: frames, e, s)

end Subscriber
end SampleCast
