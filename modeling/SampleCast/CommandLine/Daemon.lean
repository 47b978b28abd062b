import SampleCast.Broadcast.Basic
import SampleCast.CommandLine.Filter
import SampleCast.Settings.Daemon
import SampleCast.Text.Terminal

/-! The command line of the server.
Options override the settings of a file, and the settings are checked after that. The settings can
be printed instead of being used. The exit code tells apart settings that are refused, an address
that cannot be bound and a source that fails. -/

namespace SampleCast.CommandLine

structure DaemonOptions where
  config : Option String := none
  bind : Option Address := none
  port : Option UInt16 := none
  channels : Option UInt32 := none
  rate : Option UInt32 := none
  points : Option UInt32 := none
  bufferCapacity : Option UInt64 := none
  realTime : Bool := false
  metricsInterval : Option UInt64 := none
  dumpConfig : Bool := false
  logLevel : String := "info"
  deriving DecidableEq, Inhabited

namespace DaemonOptions

def path? (text : String) : Option String := if text.isEmpty then none else some text

def reading {β : Type} (read : String → Option β) (set : β → DaemonOptions → DaemonOptions) :
    Effect DaemonOptions :=
  .value fun text o => (read text).map (set · o)

def grammar : Grammar DaemonOptions where
  switches :=
    [{ long := "config", short := some 'c'
       effect := reading path? fun v o => { o with config := some v } },
      { long := "bind", short := some 'b'
        effect := reading Address.parse? fun v o => { o with bind := some v } },
      { long := "port", short := some 'p'
        effect := reading word16? fun v o => { o with port := some v } },
      { long := "channels"
        effect := reading word32? fun v o => { o with channels := some v } },
      { long := "sampling-rate"
        effect := reading word32? fun v o => { o with rate := some v } },
      { long := "points"
        effect := reading word32? fun v o => { o with points := some v } },
      { long := "buffer-capacity"
        effect := reading word64? fun v o => { o with bufferCapacity := some v } },
      { long := "realtime", effect := .flag fun o => { o with realTime := true } },
      { long := "metrics-interval"
        effect := reading word64? fun v o => { o with metricsInterval := some v } },
      { long := "dump-config", effect := .flag fun o => { o with dumpConfig := true } },
      { long := "log-level"
        effect := reading some fun v o => { o with logLevel := v } }]

def override (o : DaemonOptions) (s : DaemonSettings) : DaemonSettings where
  server := { s.server with
    bindAddress := o.bind.getD s.server.bindAddress
    port := o.port.getD s.server.port
    pointsPerChannel := o.points.getD s.server.pointsPerChannel
    bufferCapacity := o.bufferCapacity.getD s.server.bufferCapacity }
  source := { s.source with
    channels := o.channels.getD s.source.channels
    samplingRate := o.rate.getD s.source.samplingRate
    pacing := if o.realTime then .realTime else s.source.pacing }
  metricsInterval := o.metricsInterval.getD s.metricsInterval

end DaemonOptions

structure DaemonHost where
  file : String → SettingsFile
  refusal : ServerSettings → Option Fault
  patience : Nat := 0

inductive DaemonError
  | loading (path : String) (e : SettingsError)
  | invalid (e : SettingsError)
  | broadcast (e : BroadcastError)
  deriving DecidableEq, Inhabited

namespace DaemonError

def exitCode : DaemonError → UInt8
  | .broadcast (.bind ..) => 2
  | .broadcast (.producer _) => 3
  | _ => 1

def sourceCauses : SourceError → List String
  | .io f => [f.text]
  | _ => []

def causes : DaemonError → List String
  | .loading _ e | .invalid e => [e.message]
  | .broadcast (.settings e) => [e.message]
  | .broadcast (.bind _ f) => [f.text]
  | .broadcast (.producer (.source e)) => e.message :: sourceCauses e
  | .broadcast (.producer (.overrun ..)) => []

def headline : DaemonError → String
  | .loading path _ => s!"loading {path}"
  | .invalid _ => "invalid configuration"
  | .broadcast e => e.message

def message (e : DaemonError) : String := ": ".intercalate (e.headline :: e.causes)

end DaemonError

namespace DaemonHost

def settings (host : DaemonHost) (o : DaemonOptions) : Except DaemonError DaemonSettings := do
  let base ←
    match o.config with
    | some path =>
      (SettingsFile.load DaemonSettings.parse? (host.file path)).mapError (.loading path)
    | none => .ok {}
  let s := o.override base
  s.validate.mapError .invalid
  .ok s

def produce (source : SampleSource DeviceState) (station : Station) :
    Nat → Broadcast DeviceState → Broadcast DeviceState
  | 0, b => b
  | n + 1, b =>
    match b.step source station .produce with
    | some b => produce source station n b
    | none => b

/-- A server without clients, from its start until it has stopped. Once told to stop the producer
ends within one block, and the acceptor closes when it looks. -/
def serve (host : DaemonHost) (source : SampleSource DeviceState) (station : Station) :
    Broadcast DeviceState :=
  let running := produce source station host.patience (.start station {})
  let stopped := { running with hub := running.hub.stop }
  let ended := produce source station 6 stopped
  (ended.look).getD ended

def operate (host : DaemonHost) (s : DaemonSettings) : Except BroadcastError Unit := do
  let source := s.source.device.source
  let station ← Station.bind s.server source (host.refusal s.server)
  match (host.serve source station).result? with
  | some (.error e) => .error e
  | _ => .ok ()

def execute (host : DaemonHost) (o : DaemonOptions) : Except DaemonError String := do
  let s ← host.settings o
  if o.dumpConfig then .ok (s.text ++ "\n")
  else
    (host.operate s).mapError .broadcast
    .ok ""

def programName : String := "pmlabd"

def versionText : String := s!"{programName} 0.3.0\n"

def errorReport : Report := ⟨programName, .error, ["message"]⟩

def errorText (e : DaemonError) : String := Terminal.escape e.message

/-- A whole run of the server's program. An error is reported if the filter of the options admits
it. -/
def program (host : DaemonHost) (args : List String) : Exit :=
  match DaemonOptions.grammar.parse {} args with
  | .misuse => { code := 2 }
  | .help => { code := 0 }
  | .version => { code := 0, output := versionText }
  | .given o =>
    match Filter.read? o.logLevel .info, host.execute o with
    | none, _ => .aborted
    | some _, .ok output => { code := 0, output }
    | some filter, .error e =>
      { code := e.exitCode
        error := if filter.admits errorReport then some (errorText e) else none }

end DaemonHost
end SampleCast.CommandLine
