import SampleCast.CommandLine.Filter
import SampleCast.Metrics.Report
import SampleCast.Subscriber
import SampleCast.Text.Parts

/-! The command line of the client.
It prints one line for each point: the time in seconds, and then the samples of the channels in the
order in which they were asked for. -/

namespace SampleCast.CommandLine

structure ViewerOptions where
  server : String := "127.0.0.1"
  port : UInt16 := 12345
  channels : List UInt32 := []
  count : UInt64 := 0
  digital : Bool := false
  logLevel : String := "warn"
  deriving DecidableEq, Inhabited

namespace ViewerOptions

def defaultChannels : List UInt32 := [0, 1]

def channels? (text : String) : Option (List UInt32) :=
  (splitParts ',' text.toList).mapM fun part => word32? (String.ofList part)

def grammar : Grammar ViewerOptions where
  switches :=
    [{ long := "channels", short := some 'c', repeatable := true
       effect := .value fun text o =>
        (channels? text).map fun v => { o with channels := o.channels ++ v } },
      { long := "count", short := some 'n'
        effect := .value fun text o => (word64? text).map fun v => { o with count := v } },
      { long := "digital", short := some 'd', effect := .flag fun o => { o with digital := true } },
      { long := "log-level"
        effect := .value fun text o => some { o with logLevel := text } }]
  operands :=
    [fun text o => some { o with server := text },
      fun text o => (word16? text).map fun v => { o with port := v }]

def wanted (o : ViewerOptions) : List UInt32 :=
  if o.channels.isEmpty then defaultChannels else o.channels

end ViewerOptions

namespace Viewer

def places : Nat := 6

def timeOf (f : Frame) (rate : UInt32) (point : Nat) : Float :=
  f.timestamp.toFloat / 1000000000.0 + Float.ofNat point / (max rate 1).toFloat

def sampleText (digital : Bool) (analog : Level) (bit : Bool) : String :=
  let value := " " ++ FixedPlaces.format places (Float.ofBits analog)
  if digital then value ++ (if bit then " 1" else " 0") else value

def channelText (f : Frame) (digital : Bool) (point channel : Nat) : String :=
  let c := UInt32.ofNat channel
  match (f.analogOf c).bind (·[point]?), (f.digitalOf c).bind (·[point]?) with
  | some a, some b => sampleText digital a b
  | _, _ => ""

def line (f : Frame) (rate : UInt32) (digital : Bool) (point : Nat) : String :=
  FixedPlaces.format places (timeOf f rate point)
    ++ String.join ((List.range f.channelCount.toNat).map (channelText f digital point)) ++ "\n"

def text (f : Frame) (rate : UInt32) (digital : Bool) : String :=
  String.join ((List.range f.pointsPerChannel.toNat).map (line f rate digital))

def shown (s : Subscriber) (digital : Bool) : Nat → String × Option WireError
  | 0 => ("", none)
  | n + 1 =>
    match s.read with
    | (.error e, _) => ("", some e)
    | (.ok none, _) => ("", none)
    | (.ok (some f), after) =>
      let (more, e) := shown after digital n
      (text f s.rate digital ++ more, e)

/-- How many frames are asked for. Without a limit it is one more than there are bytes, and every
frame takes a byte. -/
def framesWanted (o : ViewerOptions) (s : Subscriber) : Nat :=
  if o.count = 0 then (Reading.bytes s.incoming).length + 1 else o.count.toNat

def wireCauses : WireError → List String
  | .io f => [f.text]
  | _ => []

def causeLines : List String → String
  | [] => ""
  | [cause] => "    " ++ cause
  | causes =>
    "\n".intercalate ((List.range causes.length).zip causes |>.map fun (i, cause) =>
      s!"    {i}: {cause}")

def errorText (headline : String) (e : WireError) : String :=
  s!"Error: {headline}\n\nCaused by:\n{causeLines (e.message :: wireCauses e)}"

def versionText : String := "pmlab-client 0.3.0\n"

structure Run where
  exit : Exit
  sent : List UInt8 := []

def execute (dial : String → UInt16 → Except Fault Socket) (o : ViewerOptions) : Run :=
  let r := Subscriber.connect o.wanted (dial o.server o.port)
  match r.result with
  | .error e =>
    ⟨{ code := 1, error := some (errorText s!"connecting to {o.server}:{o.port}" e) }, r.sent⟩
  | .ok s =>
    match shown s o.digital (framesWanted o s) with
    | (output, none) => ⟨{ code := 0, output }, r.sent⟩
    | (output, some e) =>
      ⟨{ code := 1, output, error := some (errorText "reading from server" e) }, r.sent⟩

/-- A whole run of the client's program, where `dial` connects to a server. The filter of the
options is for reports that are not part of its output, but it has to be read. -/
def program (dial : String → UInt16 → Except Fault Socket) (args : List String) : Run :=
  match ViewerOptions.grammar.parse {} args with
  | .misuse => { exit := { code := 2 } }
  | .help => { exit := { code := 0 } }
  | .version => { exit := { code := 0, output := versionText } }
  | .given o =>
    match Filter.read? o.logLevel .warn with
    | none => { exit := .aborted }
    | some _ => execute dial o

end Viewer
end SampleCast.CommandLine
