import SampleCast.Frame
import SampleCast.Wire.Error

/-! The payload of a data message.
A header gives the timestamp, the number of channels and the points of each. Then every channel
follows with its analog samples, eight bytes each, and its digital samples, one byte each, which is
zero or one. `decode` accepts the images of well-shaped frames and nothing else. -/

namespace SampleCast.Payload

def headerSize : Nat := 16

def bytesPerPoint : Nat := 9

def size (f : Frame) : Nat := headerSize + f.sampleCount * bytesPerPoint

def header (f : Frame) : List UInt8 :=
  BigEndian.encode 8 f.timestamp.toNat ++ BigEndian.encode 4 f.channelCount.toNat
    ++ BigEndian.encode 4 f.pointsPerChannel.toNat

def levelBytes (levels : List Level) : List UInt8 :=
  levels.flatMap fun x => BigEndian.encode 8 x.toNat

def bitBytes (bits : List Bool) : List UInt8 := bits.map fun b => if b then 1 else 0

def blocks (points : Nat) : Nat → List Level → List Bool → List UInt8
  | 0, _, _ => []
  | _ + 1, [], _ => []
  | k + 1, analog, digital =>
    levelBytes (analog.take points) ++ bitBytes (digital.take points)
      ++ blocks points k (analog.drop points) (digital.drop points)

def encode (f : Frame) : List UInt8 :=
  header f ++ blocks f.pointsPerChannel.toNat f.channelCount.toNat f.analog f.digital

def append (f : Frame) (buffer : List UInt8) : List UInt8 := buffer ++ encode f

def levels : List UInt8 → List Level
  | a :: b :: c :: d :: e :: f :: g :: h :: rest =>
    UInt64.ofNat (BigEndian.decode [a, b, c, d, e, f, g, h]) :: levels rest
  | _ => []

def bits (channel : Nat) : List UInt8 → Except PayloadFlaw (List Bool)
  | [] => .ok []
  | b :: rest =>
    if b = 0 then (bits channel rest).map (false :: ·)
    else if b = 1 then (bits channel rest).map (true :: ·)
    else .error (.digitalByte b channel)

/-- The samples of `k` channels, of which the first is number `channel`. -/
def samples (points : Nat) : Nat → Nat → List UInt8 → Except PayloadFlaw (List Level × List Bool)
  | 0, _, _ => .ok ([], [])
  | _ + 1, _, [] => .ok ([], [])
  | k + 1, channel, bytes =>
    match bits channel ((bytes.drop (points * 8)).take points) with
    | .error e => .error e
    | .ok digital =>
      match samples points k (channel + 1) (bytes.drop (points * bytesPerPoint)) with
      | .error e => .error e
      | .ok (moreAnalog, moreDigital) =>
        .ok (levels (bytes.take (points * 8)) ++ moreAnalog, digital ++ moreDigital)

def decode (bytes : List UInt8) : Except PayloadFlaw Frame :=
  if bytes.length < headerSize then .error (.shorterThanHeader bytes.length)
  else
    let timestamp := BigEndian.decode (bytes.take 8)
    let channels := BigEndian.decode ((bytes.drop 8).take 4)
    let points := BigEndian.decode ((bytes.drop 12).take 4)
    if headerSize + channels * points * bytesPerPoint ≠ bytes.length then
      .error (.misfit channels points bytes.length)
    else
      match samples points channels 0 (bytes.drop headerSize) with
      | .error e => .error e
      | .ok (analog, digital) =>
        .ok ⟨UInt64.ofNat timestamp, UInt32.ofNat channels, UInt32.ofNat points, analog, digital⟩

end SampleCast.Payload
