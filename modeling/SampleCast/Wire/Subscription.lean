import SampleCast.Stream.Reader
import SampleCast.Stream.Writer
import SampleCast.Wire.Error

/-! Opening a subscription.
A client asks for channels by a `Request`, a count and that many channel numbers of four bytes. The
server answers by a `Reply`, a marker and the sampling rate. -/

namespace SampleCast

structure Request where
  channels : List UInt32
  deriving DecidableEq, Inhabited

namespace Request

def encode (r : Request) : List UInt8 :=
  BigEndian.encode 4 r.channels.length
    ++ r.channels.flatMap fun c => BigEndian.encode 4 c.toNat

def write (r : Request) (peer : List Acceptance) : Written := writeAll r.encode peer

def words : List UInt8 → List UInt32
  | a :: b :: c :: d :: rest => UInt32.ofNat (BigEndian.decode [a, b, c, d]) :: words rest
  | _ => []

/-- A count outside `1..limit` is refused before any channel number is read. -/
def read (limit : UInt32) (s : List Reading) : Except WireError Request × List Reading :=
  match Reading.exactly 4 s with
  | (.error f, s) => (.error (.io f), s)
  | (.ok bytes, s) =>
    let count := BigEndian.decode bytes
    if count = 0 then (.error (.refused .noChannels), s)
    else if limit.toNat < count then (.error (.refused (.tooMany count limit.toNat)), s)
    else
      match Reading.exactly (4 * count) s with
      | (.error f, s) => (.error (.io f), s)
      | (.ok bytes, s) => (.ok ⟨words bytes⟩, s)

def validate (r : Request) (available : UInt32) : Except WireError Unit :=
  match r.channels.find? (available ≤ ·) with
  | some c => .error (.refused (.outOfRange c available))
  | none => .ok ()

end Request

structure Reply where
  rate : UInt32
  deriving DecidableEq, Inhabited

namespace Reply

def parts (r : Reply) : List (List UInt8) :=
  [Marker.welcome.bytes, BigEndian.encode 4 r.rate.toNat]

def encode (r : Reply) : List UInt8 := r.parts.flatten

/-- The marker and the rate are two writes. -/
def write (r : Reply) (peer : List Acceptance) : Written := writeEach r.parts peer

def read (s : List Reading) : Except WireError Reply × List Reading :=
  match Reading.exactly Marker.welcome.bytes.length s with
  | (.error f, s) => (.error (.io f), s)
  | (.ok bytes, s) =>
    if bytes ≠ Marker.welcome.bytes then (.error (.badMarker .welcome), s)
    else
      match Reading.exactly 4 s with
      | (.error f, s) => (.error (.io f), s)
      | (.ok bytes, s) => (.ok ⟨UInt32.ofNat (BigEndian.decode bytes)⟩, s)

end Reply
end SampleCast
