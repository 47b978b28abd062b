import SampleCast.Source.Basic

/-! The simulated device.
Every channel carries a ramp of ten steps. The digital line of channel `c` is high at step
`c mod 10` and at step 6. The pattern goes on from call to call, whatever the calls ask for, and a
call that fails leaves it where it was. -/

namespace SampleCast

inductive Pacing
  | none
  | realTime
  | fixedMillis (millis : UInt64)
  deriving DecidableEq, Inhabited

/-- The time between two calls, as a fraction of a second. In real time it is that of the points
delivered, and there is none at rate zero. -/
def Pacing.interval? (points rate : UInt32) : Pacing → Option (Nat × Nat)
  | .none => some (0, 1)
  | .realTime => if rate = 0 then Option.none else some (points.toNat, rate.toNat)
  | .fixedMillis n => some (n.toNat, 1000)

structure Device where
  channels : UInt32
  rate : UInt32
  pointsPerCall : UInt32 := 10
  pacing : Pacing := .none
  faultAfter : Option Nat := Option.none
  deriving DecidableEq, Inhabited

structure DeviceState where
  phase : Nat := 0
  calls : Nat := 0
  deriving DecidableEq, Inhabited

namespace Device

def period : Nat := 10

def commonTrigger : Nat := 6

def analogValue (point : Nat) : Level :=
  (Float.ofNat (point % period + 1) / Float.ofNat period).toBits

def digitalValue (channel point : Nat) : Bool :=
  point % period == channel % period || point % period == commonTrigger

def pointsFor (d : Device) (maxPoints : UInt32) : UInt32 := min d.pointsPerCall maxPoints

def ramp (phase points : Nat) : List Level :=
  (List.range points).map fun i => analogValue (phase + i)

def trigger (channel phase points : Nat) : List Bool :=
  (List.range points).map fun i => digitalValue channel (phase + i)

def perChannel {α : Type} (d : Device) (points : Nat) (block : Nat → List α) : List α :=
  if points = 0 then [] else (List.range d.channels.toNat).flatMap block

def acquire (d : Device) (s : DeviceState) (ask : Demand) : Delivery × DeviceState :=
  let points := (d.pointsFor ask.maxPoints).toNat
  let needed := d.channels.toNat * points
  let actual := min ask.analogRoom ask.digitalRoom
  if d.faultAfter.any (· ≤ s.calls) then
    ({ result := .error (.device s!"simulated fault after {s.calls} calls") }, s)
  else if actual < needed then ({ result := .error (.bufferTooSmall needed actual) }, s)
  else
    ({ result := .ok (d.pointsFor ask.maxPoints)
       analog := d.perChannel points fun _ => ramp s.phase points
       digital := d.perChannel points fun c => trigger c s.phase points },
      ⟨(s.phase + points) % period, s.calls + 1⟩)

def source (d : Device) : SampleSource DeviceState := ⟨d.channels, d.rate, d.acquire⟩

end Device
end SampleCast
