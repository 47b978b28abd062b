import SampleCast.Address
import SampleCast.Duration
import SampleCast.Json.Printer
import SampleCast.Json.Reader
import SampleCast.Stream.Fault
import SampleCast.Wire.Payload

/-! Settings of the server.
Each field has a default, which stands for it where a text leaves it out. `ServerSettings.absent`
puts these together; the default of the whole is a value of its own. A file that cannot be read, a
text that does not parse and a value that is refused are told apart. Main definitions: the two
checks of the message limit, `validate` for one channel and `validateFor` for all channels of a
source, and the reader and printer of the text form. -/

namespace SampleCast

inductive SettingsFlaw
  | backlog
  | zero (field : String)
  | noRoomForChannel (limit points : Nat)
  | payloadTooLarge (channels points size limit : Nat)
  | callTooLong (perCall perChannel : UInt32)
  deriving DecidableEq, Inhabited

def SettingsFlaw.message : SettingsFlaw → String
  | .backlog => "backlog must be positive"
  | .zero field => s!"{field} cannot be 0"
  | .noRoomForChannel limit points =>
    s!"max_message_size {limit} cannot hold one channel of {points} points"
  | .payloadTooLarge channels points size limit =>
    s!"{channels} channels x {points} points needs {size} byte payloads (max_message_size {limit})"
  | .callTooLong perCall perChannel =>
    s!"source.points_per_call ({perCall}) exceeds server.points_per_channel ({perChannel})"

inductive SettingsError
  | io (fault : Fault)
  | parse
  | invalid (flaw : SettingsFlaw)
  deriving DecidableEq, Inhabited

def SettingsError.message : SettingsError → String
  | .io f => s!"I/O error: {f.text}"
  | .parse => "parse error"
  | .invalid flaw => s!"invalid value: {flaw.message}"

namespace ServerSettings

def defaultBindAddress : Address := .anyV4

def defaultPort : UInt16 := 12345

def defaultBacklog : Int32 := 8

def defaultBufferCapacity : UInt64 := 256

def defaultPointsPerChannel : UInt32 := 1024

def defaultAcquisitionTimeout : UInt64 := 10000

def defaultWaitTimeout : UInt64 := 1500

def defaultHandshakeTimeout : UInt64 := 5000

def defaultMaxRequestedChannels : UInt32 := 1024

def defaultMaxMessageSize : UInt64 := 16777216

def defaultTrue : Bool := true

end ServerSettings

open ServerSettings in
structure ServerSettings where
  bindAddress : Address := defaultBindAddress
  port : UInt16 := defaultPort
  backlog : Int32 := defaultBacklog
  bufferCapacity : UInt64 := defaultBufferCapacity
  pointsPerChannel : UInt32 := defaultPointsPerChannel
  acquisitionTimeout : UInt64 := defaultAcquisitionTimeout
  waitTimeout : UInt64 := defaultWaitTimeout
  handshakeTimeout : UInt64 := defaultHandshakeTimeout
  maxRequestedChannels : UInt32 := defaultMaxRequestedChannels
  maxMessageSize : UInt64 := defaultMaxMessageSize
  nodelay : Bool := true
  deriving DecidableEq, Inhabited

namespace ServerSettings

def loopback : ServerSettings := { bindAddress := .loopbackV4, port := 0 }

def socketText (s : ServerSettings) : String := s.bindAddress.socketText s.port

def largestWord : Nat := UInt64.size - 1

/-- The payload of a full block of so many channels, as far as a word can say. -/
def payloadSize (s : ServerSettings) (channels : UInt32) : Nat :=
  min largestWord
    (channels.toNat * s.pointsPerChannel.toNat * Payload.bytesPerPoint + Payload.headerSize)

def maxChannelsPerMessage (s : ServerSettings) : UInt32 :=
  let perChannel := s.pointsPerChannel.toNat * Payload.bytesPerPoint
  if perChannel = 0 then UInt32.ofNat (UInt32.size - 1)
  else
    let room := s.maxMessageSize.toNat - Payload.headerSize
    UInt32.ofNat (min (UInt32.size - 1) (room / perChannel))

def validateFor (s : ServerSettings) (channels : UInt32) : Except SettingsError Unit :=
  let size := s.payloadSize channels
  if s.maxMessageSize.toNat < size then
    .error (.invalid
      (.payloadTooLarge channels.toNat s.pointsPerChannel.toNat size s.maxMessageSize.toNat))
  else .ok ()

def flaw? (s : ServerSettings) : Option SettingsFlaw :=
  if s.backlog ≤ 0 then some .backlog
  else if s.bufferCapacity = 0 then some (.zero "buffer_capacity")
  else if s.pointsPerChannel = 0 then some (.zero "points_per_channel")
  else if s.waitTimeout = 0 then some (.zero "wait_timeout_ms")
  else if s.handshakeTimeout = 0 then some (.zero "handshake_timeout_ms")
  else if s.maxRequestedChannels = 0 then some (.zero "max_requested_channels")
  else if s.maxChannelsPerMessage = 0 then
    some (.noRoomForChannel s.maxMessageSize.toNat s.pointsPerChannel.toNat)
  else none

def validate (s : ServerSettings) : Except SettingsError Unit :=
  match s.flaw? with
  | some flaw => .error (.invalid flaw)
  | none => .ok ()

def fieldNames : List String :=
  ["bind_address", "port", "backlog", "buffer_capacity", "points_per_channel",
    "acquisition_timeout_ms", "wait_timeout_ms", "handshake_timeout_ms", "max_requested_channels",
    "max_message_size", "nodelay"]

def toJson (s : ServerSettings) : JsonValue :=
  .ofFields (fieldNames.zip
    [.ofText s.bindAddress.text, .ofNat s.port.toNat, .ofInt s.backlog.toInt,
      .ofNat s.bufferCapacity.toNat, .ofNat s.pointsPerChannel.toNat,
      .ofNat s.acquisitionTimeout.toNat, .ofNat s.waitTimeout.toNat,
      .ofNat s.handshakeTimeout.toNat, .ofNat s.maxRequestedChannels.toNat,
      .ofNat s.maxMessageSize.toNat, .bool s.nodelay])

end ServerSettings

namespace JsonValue

def orDefault {α : Type} (default : α) (read : JsonValue → Option α) : Option JsonValue → Option α
  | none => some default
  | some v => read v

def word16? (v : JsonValue) : Option UInt16 := (v.nat? (UInt16.size - 1)).map UInt16.ofNat

def word32? (v : JsonValue) : Option UInt32 := (v.nat? (UInt32.size - 1)).map UInt32.ofNat

def word64? (v : JsonValue) : Option UInt64 := (v.nat? (UInt64.size - 1)).map UInt64.ofNat

def int32? (v : JsonValue) : Option Int32 := (v.int? 32).map Int32.ofInt

def address? (v : JsonValue) : Option Address := v.text?.bind Address.parse?

end JsonValue

namespace ServerSettings

open JsonValue in
def ofJsonOver (d : ServerSettings) (v : JsonValue) : Option ServerSettings := do
  match ← v.fields? fieldNames with
  | [address, port, backlog, capacity, points, acquisition, wait, handshake, channels, size,
      nodelay] =>
    some {
      bindAddress := ← orDefault d.bindAddress address? address
      port := ← orDefault d.port word16? port
      backlog := ← orDefault d.backlog int32? backlog
      bufferCapacity := ← orDefault d.bufferCapacity word64? capacity
      pointsPerChannel := ← orDefault d.pointsPerChannel word32? points
      acquisitionTimeout := ← orDefault d.acquisitionTimeout word64? acquisition
      waitTimeout := ← orDefault d.waitTimeout word64? wait
      handshakeTimeout := ← orDefault d.handshakeTimeout word64? handshake
      maxRequestedChannels := ← orDefault d.maxRequestedChannels word32? channels
      maxMessageSize := ← orDefault d.maxMessageSize word64? size
      nodelay := ← orDefault d.nodelay bool? nodelay }
  | _ => none

/-- What stands for the fields that a text leaves out, field by field. -/
def absent : ServerSettings where
  bindAddress := defaultBindAddress
  port := defaultPort
  backlog := defaultBacklog
  bufferCapacity := defaultBufferCapacity
  pointsPerChannel := defaultPointsPerChannel
  acquisitionTimeout := defaultAcquisitionTimeout
  waitTimeout := defaultWaitTimeout
  handshakeTimeout := defaultHandshakeTimeout
  maxRequestedChannels := defaultMaxRequestedChannels
  maxMessageSize := defaultMaxMessageSize
  nodelay := defaultTrue

def ofJson? (v : JsonValue) : Option ServerSettings := ofJsonOver absent v

def text (s : ServerSettings) : String := s.toJson.pretty

def parse? (text : String) : Option ServerSettings := (JsonValue.parse? text).bind ofJson?

end ServerSettings
end SampleCast
