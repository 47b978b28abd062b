import SampleCast.Stream.Reader
import SampleCast.Wire.Message

/-! Reading data messages from a stream.
A decoder reads a marker, a size and a payload, and counts what it accepted and what it rejected. A
stream that ends between two messages is no error. A size above the limit is refused before any
byte of the payload is read. -/

namespace SampleCast

structure Decoder where
  limit : Nat
  /-- The size of the payload buffer, which is reused from message to message. -/
  bufferSize : Nat := 0
  buffer : List UInt8 := []
  framesDecoded : Nat := 0
  bytesDecoded : Nat := 0
  framesRejected : Nat := 0
  deriving Inhabited

namespace Decoder

def defaultLimit : Nat := 16 * 1024 * 1024

def ofLimit (limit : Nat) : Decoder := { limit }

def reject (d : Decoder) : Decoder := { d with framesRejected := d.framesRejected + 1 }

def accept (d : Decoder) (size : Nat) : Decoder :=
  { d with framesDecoded := d.framesDecoded + 1, bytesDecoded := d.bytesDecoded + size }

structure Step where
  result : Except WireError (Option Frame)
  decoder : Decoder
  rest : List Reading

/-- The payload of a message whose size was announced and is within the limit. -/
def readPayload (d : Decoder) (size : Nat) (s : List Reading) : Step :=
  let filled := (Reading.fill size s).bytes
  let d := { d with bufferSize := size, buffer := filled }
  match Reading.exactly size s with
  | (.error f, s) => ⟨.error (.io f), d, s⟩
  | (.ok bytes, s) =>
    match Payload.decode bytes with
    | .ok frame => ⟨.ok (some frame), d.accept size, s⟩
    | .error flaw => ⟨.error (.malformed flaw), d.reject, s⟩

def readSized (d : Decoder) (s : List Reading) : Step :=
  match Reading.exactly 4 s with
  | (.error f, s) => ⟨.error (.io f), d, s⟩
  | (.ok bytes, s) =>
    let size := BigEndian.decode bytes
    if d.limit < size then ⟨.error (.tooLarge size d.limit), d.reject, s⟩
    else d.readPayload size s

def read (d : Decoder) (s : List Reading) : Step :=
  match Reading.exactlyOrEnd Marker.data.bytes.length s with
  | (.error f, s) => ⟨.error (.io f), d, s⟩
  | (.ok none, s) => ⟨.ok none, d, s⟩
  | (.ok (some bytes), s) =>
    if bytes ≠ Marker.data.bytes then ⟨.error (.badMarker .data), d.reject, s⟩
    else d.readSized s

def readEach : Nat → Decoder → List Reading → List Step
  | 0, _, _ => []
  | n + 1, d, s =>
    let step := d.read s
    step :: readEach n step.decoder step.rest

end Decoder
end SampleCast
