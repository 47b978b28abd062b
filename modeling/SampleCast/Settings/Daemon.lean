import SampleCast.Settings.Source

/-! Settings of the daemon, and settings files.
The daemon has a section for its server and one for its source. They are checked one after the
other, and then against each other. -/

namespace SampleCast

def DaemonSettings.defaultMetricsInterval : UInt64 := 10

structure DaemonSettings where
  server : ServerSettings := {}
  source : SourceSettings := {}
  /-- The seconds between two reports of the counters; at zero there are none. -/
  metricsInterval : UInt64 := DaemonSettings.defaultMetricsInterval
  deriving DecidableEq, Inhabited

namespace DaemonSettings

def validate (s : DaemonSettings) : Except SettingsError Unit := do
  s.server.validate
  s.source.validate.mapError .invalid
  s.server.validateFor s.source.channels
  if s.server.pointsPerChannel < s.source.pointsPerCall then
    .error (.invalid (.callTooLong s.source.pointsPerCall s.server.pointsPerChannel))
  else .ok ()

def fieldNames : List String := ["server", "source", "metrics_interval_secs"]

def toJson (s : DaemonSettings) : JsonValue :=
  .ofFields (fieldNames.zip [s.server.toJson, s.source.toJson, .ofNat s.metricsInterval.toNat])

open JsonValue in
def ofJson? (v : JsonValue) : Option DaemonSettings := do
  match ← v.fields? fieldNames with
  | [server, source, interval] =>
    some {
      server := ← orDefault {} ServerSettings.ofJson? server
      source := ← orDefault {} SourceSettings.ofJson? source
      metricsInterval := ← orDefault defaultMetricsInterval word64? interval }
  | _ => none

def text (s : DaemonSettings) : String := s.toJson.pretty

def parse? (text : String) : Option DaemonSettings := (JsonValue.parse? text).bind ofJson?

end DaemonSettings

inductive SettingsFile
  | unreadable (fault : Fault)
  | bytes (content : List UInt8)
  deriving DecidableEq, Inhabited

namespace SettingsFile

def missing : SettingsFile := .unreadable .missingFile

def content (f : SettingsFile) : Except SettingsError String :=
  match f with
  | .unreadable fault => .error (.io fault)
  | .bytes b =>
    match String.fromUTF8? ⟨b.toArray⟩ with
    | some s => .ok s
    | none => .error (.io .notText)

/-- The settings in a file. The file is read as text before the text is parsed. -/
def load {α : Type} (parse? : String → Option α) (f : SettingsFile) : Except SettingsError α := do
  match parse? (← f.content) with
  | some s => .ok s
  | none => .error .parse

end SettingsFile
end SampleCast
