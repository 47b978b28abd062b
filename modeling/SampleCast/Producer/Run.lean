import SampleCast.Producer.Basic
import SampleCast.Source.Pattern

/-! Runs of the producer on its own.
Without workers the barrier is always ready, so the producer ends when its source asks it to stop or
fails. A script fails after its last delivery, and a device with a fault limit fails at that limit,
so for both the number of actions is known beforehand. -/

namespace SampleCast.Producer

variable {σ : Type}

structure Run (σ : Type) where
  calls : List Call
  hub : Hub
  producer : Producer σ

def run (source : SampleSource σ) (station : Station) : Nat → Hub → Producer σ → Run σ
  | 0, hub, p => ⟨[], hub, p⟩
  | n + 1, hub, p =>
    match p.step source station hub with
    | none => ⟨[], hub, p⟩
    | some (after, q) =>
      let r := run source station n after q
      ⟨(p.call? station hub).toList ++ r.calls, r.hub, r.producer⟩

def actionsFor (calls : Nat) : Nat := 4 * (calls + 1) + 2

def stationOf (settings : ServerSettings) (source : SampleSource σ) : Station :=
  ⟨settings, source.channelCount, source.rate⟩

def runScript (settings : ServerSettings) (channels rate : UInt32) (hub : Hub)
    (script : List Delivery) : Run (List Delivery) :=
  let source := SampleSource.scripted channels rate
  let station := stationOf settings source
  run source station (actionsFor (script.length + 1)) hub (start station script)

def runDevice (settings : ServerSettings) (device : Device) (calls : Nat) (hub : Hub) :
    Run DeviceState :=
  let source := device.source
  let station := stationOf settings source
  run source station (actionsFor (calls + 1)) hub (start station {})

end SampleCast.Producer
