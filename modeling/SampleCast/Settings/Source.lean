import SampleCast.Settings.Server
import SampleCast.Source.Pattern

/-! Settings of the simulated device. -/

namespace SampleCast

namespace SourceSettings

def defaultChannels : UInt32 := 3

def defaultSamplingRate : UInt32 := 30000

def defaultPointsPerCall : UInt32 := 10

def defaultPacing : Pacing := .none

end SourceSettings

open SourceSettings in
structure SourceSettings where
  channels : UInt32 := defaultChannels
  samplingRate : UInt32 := defaultSamplingRate
  pointsPerCall : UInt32 := defaultPointsPerCall
  pacing : Pacing := defaultPacing
  deriving DecidableEq, Inhabited

namespace Pacing

def toJson : Pacing → JsonValue
  | .none => .ofText "none"
  | .realTime => .ofText "real_time"
  | .fixedMillis n => .ofFields [("fixed_millis", .ofNat n.toNat)]

/-- A pacing without a number may also be an object of one member, which is null. -/
def ofJson? : JsonValue → Option Pacing
  | .string (some name) =>
    if name = "none".toList then some .none
    else if name = "real_time".toList then some .realTime
    else Option.none
  | .object [(some name, v)] =>
    if name = "fixed_millis".toList then v.word64?.map .fixedMillis
    else
      match v with
      | .null =>
        if name = "none".toList then some .none
        else if name = "real_time".toList then some .realTime
        else Option.none
      | _ => Option.none
  | _ => Option.none

end Pacing

namespace SourceSettings

def flaw? (s : SourceSettings) : Option SettingsFlaw :=
  if s.channels = 0 then some (.zero "channels")
  else if s.samplingRate = 0 then some (.zero "sampling_rate_hz")
  else if s.pointsPerCall = 0 then some (.zero "points_per_call")
  else none

def validate (s : SourceSettings) : Except SettingsFlaw Unit :=
  match s.flaw? with
  | some flaw => .error flaw
  | none => .ok ()

def device (s : SourceSettings) : Device :=
  ⟨s.channels, s.samplingRate, s.pointsPerCall, s.pacing, none⟩

def fieldNames : List String := ["channels", "sampling_rate_hz", "points_per_call", "pacing"]

def toJson (s : SourceSettings) : JsonValue :=
  .ofFields (fieldNames.zip
    [.ofNat s.channels.toNat, .ofNat s.samplingRate.toNat, .ofNat s.pointsPerCall.toNat,
      s.pacing.toJson])

open JsonValue in
def ofJson? (v : JsonValue) : Option SourceSettings := do
  match ← v.fields? fieldNames with
  | [channels, rate, points, pacing] =>
    some {
      channels := ← orDefault defaultChannels word32? channels
      samplingRate := ← orDefault defaultSamplingRate word32? rate
      pointsPerCall := ← orDefault defaultPointsPerCall word32? points
      pacing := ← orDefault defaultPacing Pacing.ofJson? pacing }
  | _ => none

def text (s : SourceSettings) : String := s.toJson.pretty

def parse? (text : String) : Option SourceSettings := (JsonValue.parse? text).bind ofJson?

end SourceSettings
end SampleCast
