import SampleCast.Barrier.Waiting
import SampleCast.Metrics.Basic
import SampleCast.Settings.Server
import SampleCast.Slot

/-! What the workers of one server share.
The hub changes while the server runs: it holds the barrier, the published block and the counters.
The station does not: it holds the settings and what the source promised when the server was set
up. -/

namespace SampleCast

structure Hub where
  barrier : Barrier := {}
  slot : Slot := {}
  metrics : Metrics := {}
  deriving DecidableEq, Inhabited

structure Station where
  settings : ServerSettings
  channelCount : UInt32
  rate : UInt32
  deriving DecidableEq, Inhabited

namespace Hub

def record (h : Hub) (e : Metrics.Event) : Hub := { h with metrics := h.metrics.record e }

def stop (h : Hub) : Hub := { h with barrier := h.barrier.shutdown }

def leave (h : Hub) (w : WorkerId) : Hub := { h with barrier := (h.barrier.leave w).2 }

def publish (h : Hub) (generation : Nat) (block : Frame) : Hub :=
  { h with slot := h.slot.publish generation block }

def advance (h : Hub) : Hub := { h with barrier := h.barrier.reset.2 }

end Hub

namespace Station

def requestLimit (s : Station) : UInt32 :=
  min s.settings.maxRequestedChannels s.settings.maxChannelsPerMessage

end Station
end SampleCast
