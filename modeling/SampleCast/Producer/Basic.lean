import SampleCast.Hub
import SampleCast.Source.Basic

/-! The producer.
It waits until no worker owes a generation, asks the source for a block, publishes the block under
the number of the next generation and then opens that generation. A read without points publishes
nothing. The first failure of the source stops the whole server, and so does a source that delivers
more than it was asked for.

`step` is one action of the producer on what it shares with the workers; `run` repeats it. -/

namespace SampleCast

inductive ProducerError
  | source (e : SourceError)
  | overrun (returned requested : UInt32)
  deriving DecidableEq, Inhabited

def ProducerError.message : ProducerError → String
  | .source e => s!"sample source failed: {e.message}"
  | .overrun returned requested => s!"source returned {returned} points, {requested} requested"

/-- Everything is counted without bound, and the points are those of each channel, over all blocks.
Words of 64 bits count alike, and give the same times, below 2^64 points (`KeepsTime.words`). -/
structure ProducerStats where
  generations : Nat := 0
  totalPoints : Nat := 0
  lastTimestamp : UInt64 := 0
  emptyReads : Nat := 0
  deriving DecidableEq, Inhabited

inductive ProducerPhase
  | awaiting
  | acquiring
  | publishing (points : UInt32)
  | opening (points : UInt32) (timestamp : UInt64)
  | failing (e : ProducerError)
  | ended (result : Except ProducerError ProducerStats)
  deriving Inhabited

structure Producer (σ : Type) where
  source : σ
  analog : List Level
  digital : List Bool
  stats : ProducerStats := {}
  phase : ProducerPhase := .awaiting

/-- The time in nanoseconds at which a point is taken, counted from the first. It is computed from
the number of points before it, so that rounding does not add up. Time stops at the largest word,
and a rate of zero counts as one. -/
def timestampAt (rate : UInt32) (points : Nat) : UInt64 :=
  UInt64.ofNat (min (UInt64.size - 1) (points * 1000000000 / max rate.toNat 1))

namespace Producer

variable {σ : Type}

def start (station : Station) (source : σ) : Producer σ :=
  let room := station.channelCount.toNat * station.settings.pointsPerChannel.toNat
  { source
    analog := List.replicate room 0
    digital := List.replicate room false }

def demand (p : Producer σ) (station : Station) : Demand where
  maxPoints := station.settings.pointsPerChannel
  timeout := .ofMillis station.settings.acquisitionTimeout.toNat
  analogRoom := p.analog.length
  digitalRoom := p.digital.length

def judge (station : Station) : Except SourceError UInt32 → ProducerPhase
  | .error e => .failing (.source e)
  | .ok points =>
    if station.settings.pointsPerChannel < points then
      .failing (.overrun points station.settings.pointsPerChannel)
    else if points = 0 then .awaiting
    else .publishing points

def countEmpty (stats : ProducerStats) : Except SourceError UInt32 → ProducerStats
  | .ok 0 => { stats with emptyReads := stats.emptyReads + 1 }
  | _ => stats

def countBlock (stats : ProducerStats) (points : UInt32) (timestamp : UInt64) :
    ProducerStats :=
  { stats with
    generations := stats.generations + 1
    totalPoints := stats.totalPoints + points.toNat
    lastTimestamp := timestamp }

def receive (p : Producer σ) (station : Station) (d : Delivery) (source : σ) : Producer σ where
  source
  analog := overlay d.analog p.analog
  digital := overlay d.digital p.digital
  stats := countEmpty p.stats d.result
  phase := judge station d.result

def block (p : Producer σ) (station : Station) (points : UInt32) : Frame :=
  .ofBuffers (timestampAt station.rate p.stats.totalPoints) station.channelCount points p.analog
    p.digital

def step (source : SampleSource σ) (station : Station) (hub : Hub) (p : Producer σ) :
    Option (Hub × Producer σ) :=
  match p.phase with
  | .awaiting =>
    match hub.barrier.readiness with
    | none => none
    | some .stopped => some (hub, { p with phase := .ended (.ok p.stats) })
    | some (.ready _) => some (hub, { p with phase := .acquiring })
  | .acquiring =>
    let (d, s) := source.acquire p.source (p.demand station)
    some (if d.stop then hub.stop else hub, p.receive station d s)
  | .publishing points =>
    let frame := p.block station points
    some (hub.publish (hub.barrier.generation + 1) frame,
      { p with phase := .opening points frame.timestamp })
  | .opening points timestamp =>
    some (hub.advance.record .published,
      { p with stats := countBlock p.stats points timestamp, phase := .awaiting })
  | .failing e => some (hub.stop, { p with phase := .ended (.error e) })
  | .ended _ => none

structure Call where
  demand : Demand
  generation : Nat
  published : Slot

def call? (station : Station) (hub : Hub) (p : Producer σ) : Option Call :=
  match p.phase with
  | .acquiring => some ⟨p.demand station, hub.barrier.generation, hub.slot⟩
  | _ => none

def result? (p : Producer σ) : Option (Except ProducerError ProducerStats) :=
  match p.phase with
  | .ended r => some r
  | _ => none

end Producer
end SampleCast
