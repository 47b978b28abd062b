import SampleCast.CommandLine.Daemon
import SampleCast.CommandLine.Viewer

/-! The program.
The first argument says which of the two command lines follows. No socket is opened here, so every
address is refused and every server is out of reach; all else is as the two command lines say. -/

namespace SampleCast.CommandLine

def readFile (path : String) : IO SettingsFile := do
  try
    return .bytes (← IO.FS.readBinFile path).toList
  catch
    | .noFileOrDirectory .. => return .missing
    | e => return .unreadable ⟨.other "file", toString e⟩

def hostFor (args : List String) : IO DaemonHost := do
  let path? :=
    match DaemonOptions.grammar.parse {} args with
    | .given o => o.config
    | _ => none
  let content ← (path?.map readFile).getD (pure .missing)
  return { file := fun _ => content, refusal := fun _ => some .unreachable }

def report (e : Exit) : IO UInt32 := do
  IO.print e.output
  if let some message := e.error then IO.eprintln message
  return e.code.toUInt32

end SampleCast.CommandLine

open SampleCast.CommandLine in
def main : List String → IO UInt32
  | "serve" :: args => do report ((← hostFor args).program args)
  | "watch" :: args => report (Viewer.program (fun _ _ => .error .unreachable) args).exit
  | _ => do
    IO.eprintln "usage: samplecast (serve | watch) [OPTION]..."
    return 2
