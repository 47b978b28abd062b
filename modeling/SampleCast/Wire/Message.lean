import SampleCast.Stream.Writer
import SampleCast.Wire.Payload

/-! Data messages.
A message is a marker, the size of the payload in four bytes, and the payload. It is staged whole
before any byte of it is written. -/

namespace SampleCast.Message

def lengthBytes (f : Frame) : List UInt8 := BigEndian.encode 4 (Payload.size f)

def encode (f : Frame) : List UInt8 :=
  Marker.data.bytes ++ lengthBytes f ++ Payload.encode f

def append (f : Frame) (buffer : List UInt8) : List UInt8 :=
  buffer ++ Marker.data.bytes ++ lengthBytes f ++ Payload.encode f

theorem append_eq (f : Frame) (buffer : List UInt8) : append f buffer = buffer ++ encode f := by
  simp [append, encode]

structure Sent where
  result : Except Fault Nat
  staged : List UInt8
  taken : List UInt8
  rest : List Acceptance

/-- Clears the staging buffer, fills it with the message and writes it. The result counts bytes. -/
def write (f : Frame) (staging : List UInt8) (peer : List Acceptance) : Sent :=
  let staged := append f (staging.take 0)
  let w := writeAll staged peer
  ⟨match w.fault with | some e => .error e | none => .ok staged.length, staged, w.taken, w.rest⟩

def writeEach : List Frame → List UInt8 → List Acceptance → List Sent
  | [], _, _ => []
  | f :: more, staging, peer =>
    let s := write f staging peer
    s :: writeEach more s.staged s.rest

end SampleCast.Message
