import SampleCast.Stream.Fault
import SampleCast.BigEndian

/-! What can be wrong with a message.
Each cause has its own constructor, and `message` holds the wording of all of them. -/

namespace SampleCast

inductive Marker
  | data
  | welcome
  deriving DecidableEq, Inhabited

namespace Marker

def text : Marker → String
  | .data => "THE MATRIX HAS YOU!!\x00"
  | .welcome => "WELCOME HOME NEO\x00"

def bytes (m : Marker) : List UInt8 := m.text.toList.map fun c => UInt8.ofNat c.toNat

def name : Marker → String
  | .data => "data"
  | .welcome => "welcome"

end Marker

inductive PayloadFlaw
  | shorterThanHeader (bytes : Nat)
  | misfit (channels points bytes : Nat)
  | digitalByte (value : UInt8) (channel : Nat)
  | unsubscribed (carried subscribed : Nat)
  deriving DecidableEq, Inhabited

inductive RequestFlaw
  | noChannels
  | tooMany (requested limit : Nat)
  | outOfRange (channel available : UInt32)
  deriving DecidableEq, Inhabited

inductive WireError
  | io (fault : Fault)
  | badMarker (marker : Marker)
  | tooLarge (size limit : Nat)
  | malformed (flaw : PayloadFlaw)
  | refused (flaw : RequestFlaw)
  deriving DecidableEq, Inhabited

def hexByte (b : UInt8) : String :=
  String.ofList [Nat.digitChar (b.toNat / 16), Nat.digitChar (b.toNat % 16)]

def PayloadFlaw.message : PayloadFlaw → String
  | .shorterThanHeader n => s!"payload of {n} bytes is shorter than the 16-byte header"
  | .misfit c p n => s!"{c} channels x {p} points does not fit a {n}-byte payload"
  | .digitalByte b c => s!"digital sample byte 0x{hexByte b} on channel {c}"
  | .unsubscribed c s => s!"frame carries {c} channels, subscribed to {s}"

def RequestFlaw.message : RequestFlaw → String
  | .noChannels => "client requested zero channels"
  | .tooMany n max => s!"client requested {n} channels (max {max})"
  | .outOfRange c n => s!"channel {c} out of range (source has {n} channels)"

def WireError.message : WireError → String
  | .io f => s!"I/O error: {f.text}"
  | .badMarker m => s!"bad {m.name} marker"
  | .tooLarge n max => s!"message too large: {n} bytes (max {max})"
  | .malformed f => s!"malformed payload: {f.message}"
  | .refused f => s!"invalid handshake: {f.message}"

end SampleCast
