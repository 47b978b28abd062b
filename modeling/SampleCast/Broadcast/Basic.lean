import SampleCast.Connection.Feeder
import SampleCast.Connection.Sender
import SampleCast.Producer.Basic

/-! A running server.
One producer, one acceptor and any number of connections share a hub. The acceptor takes new
connections until it sees that the server has stopped. `step` is one action of one of them, so that
a run of the server is a list of actions in any order. A server is finished when the acceptor has
closed, the producer has ended and every connection is over. -/

namespace SampleCast

inductive AcceptorPhase
  | checking
  | listening
  | closed
  deriving DecidableEq, Inhabited

structure Broadcast (σ : Type) where
  producer : Producer σ
  hub : Hub := {}
  acceptor : AcceptorPhase := .checking
  connections : List Connection := []

inductive BroadcastError
  | settings (e : SettingsError)
  | bind (address : String) (fault : Fault)
  | producer (e : ProducerError)
  deriving DecidableEq, Inhabited

def BroadcastError.message : BroadcastError → String
  | .settings e => s!"invalid configuration: {e.message}"
  | .bind address f => s!"failed to bind {address}: {f.text}"
  | .producer e => e.message

namespace Broadcast

variable {σ : Type}

inductive Action
  | produce
  | look
  | arrive (incoming : List Reading)
  | feed (index : Nat) (peer : Acceptance)
  | send (index : Nat) (peer : Acceptance)
  | stop
  deriving DecidableEq, Inhabited

def start (station : Station) (source : σ) : Broadcast σ := { producer := .start station source }

def onConnection (b : Broadcast σ) (index : Nat) (act : Connection → Option (Hub × Connection)) :
    Option (Broadcast σ) := do
  let c ← b.connections[index]?
  let (hub, c) ← act c
  some { b with hub, connections := b.connections.set index c }

def look (b : Broadcast σ) : Option (Broadcast σ) :=
  match b.acceptor with
  | .checking =>
    some { b with acceptor := if b.hub.barrier.stopped then .closed else .listening }
  | .listening => some { b with acceptor := .checking }
  | .closed => none

def arrive (station : Station) (b : Broadcast σ) (incoming : List Reading) :
    Option (Broadcast σ) :=
  match b.acceptor with
  | .listening =>
    some { b with
      hub := b.hub.record .accepted
      acceptor := .checking
      connections := b.connections ++ [.accept station incoming] }
  | _ => none

/-- The server after an action, or `none` if the action cannot be made now. -/
def step (source : SampleSource σ) (station : Station) (b : Broadcast σ) :
    Action → Option (Broadcast σ)
  | .produce => do
    let (hub, producer) ← b.producer.step source station b.hub
    some { b with hub, producer }
  | .look => b.look
  | .arrive incoming => arrive station b incoming
  | .feed i peer => b.onConnection i (Connection.feed station b.hub peer)
  | .send i peer => b.onConnection i (Connection.send b.hub peer)
  | .stop => some { b with hub := b.hub.stop }

structure Report where
  producer : ProducerStats
  metrics : Metrics
  deriving DecidableEq, Inhabited

def isOver (c : Connection) : Bool := c.outcome?.isSome

def result? (b : Broadcast σ) : Option (Except BroadcastError Report) := do
  let r ← b.producer.result?
  if b.acceptor = .closed ∧ b.connections.all isOver then
    match r with
    | .ok stats => some (.ok ⟨stats, b.hub.metrics⟩)
    | .error e => some (.error (.producer e))
  else none

end Broadcast

namespace Station

def ofSettings {σ : Type} (settings : ServerSettings) (source : SampleSource σ) :
    Except SettingsError Station := do
  settings.validate
  settings.validateFor source.channelCount
  .ok ⟨settings, source.channelCount, source.rate⟩

/-- Binding checks the settings before it asks the system, which may refuse the address. -/
def bind {σ : Type} (settings : ServerSettings) (source : SampleSource σ)
    (refusal : Option Fault) : Except BroadcastError Station := do
  let station ← (ofSettings settings source).mapError .settings
  match refusal with
  | some f => .error (.bind settings.socketText f)
  | none => .ok station

end Station
end SampleCast
