import SampleCast.Duration
import SampleCast.Frame
import SampleCast.Stream.Fault

/-! Sources of samples.
A source delivers blocks of points into two buffers. It writes from the start of each buffer, and
what it does not write stays as it was. A delivery may come with a request to stop. -/

namespace SampleCast

inductive SourceError
  | device (text : String)
  | timeout (after : Duration)
  | bufferTooSmall (needed actual : Nat)
  | io (fault : Fault)
  deriving DecidableEq, Inhabited

def SourceError.message : SourceError → String
  | .device text => s!"device fault: {text}"
  | .timeout d => s!"acquisition timed out after {d.text}"
  | .bufferTooSmall needed actual => s!"buffer too small: need {needed} samples, got {actual}"
  | .io f => s!"I/O error: {f.text}"

structure Delivery where
  result : Except SourceError UInt32
  analog : List Level := []
  digital : List Bool := []
  stop : Bool := false

structure Demand where
  maxPoints : UInt32
  timeout : Duration
  analogRoom : Nat
  digitalRoom : Nat
  deriving DecidableEq, Inhabited

structure SampleSource (σ : Type) where
  channelCount : UInt32
  rate : UInt32
  acquire : σ → Demand → Delivery × σ

/-- A buffer after samples were written to its start. It keeps its length. -/
def overlay {α : Type} (written buffer : List α) : List α :=
  written.take buffer.length ++ buffer.drop written.length

@[simp] theorem length_overlay {α : Type} (written buffer : List α) :
    (overlay written buffer).length = buffer.length := by
  simp only [overlay, List.length_append, List.length_take, List.length_drop]
  omega

theorem overlay_nil {α : Type} (buffer : List α) : overlay [] buffer = buffer := by
  simp [overlay]

namespace SampleSource

def scripted (channels rate : UInt32) : SampleSource (List Delivery) where
  channelCount := channels
  rate := rate
  acquire
    | [], _ => (⟨.error (.device "script exhausted"), [], [], false⟩, [])
    | d :: rest, _ => (d, rest)

end SampleSource
end SampleCast
