/-! Blocks of samples.
A frame holds the analog and digital samples of some channels over one stretch of time, channel by
channel. An analog sample is kept as the 64 bits of its floating-point value, so that every
not-a-number keeps its payload. Main statements: the two constructors refuse samples that do not
fill the stated shape, and `select` copies the windows of the requested channels in their order. -/

namespace SampleCast

abbrev Level := UInt64

structure Frame where
  timestamp : UInt64 := 0
  channelCount : UInt32 := 0
  pointsPerChannel : UInt32 := 0
  analog : List Level := []
  digital : List Bool := []
  deriving DecidableEq, Inhabited

inductive FrameError
  | shapeMismatch (channels points : UInt32) (actual : Nat)
  | raggedChannel (channel expected actual : Nat)
  deriving DecidableEq, Inhabited

def FrameError.message : FrameError → String
  | .shapeMismatch channels points actual =>
    s!"sample array of {actual} values does not match {channels} channels x {points} points"
  | .raggedChannel channel expected actual =>
    s!"channel {channel} has {actual} points, expected {expected}"

namespace Frame

def area (f : Frame) : Nat := f.channelCount.toNat * f.pointsPerChannel.toNat

def WellShaped (f : Frame) : Prop := f.analog.length = f.area ∧ f.digital.length = f.area

instance (f : Frame) : Decidable f.WellShaped := inferInstanceAs (Decidable (_ ∧ _))

def sampleCount (f : Frame) : Nat := f.analog.length

def isEmpty (f : Frame) : Bool := f.analog.isEmpty

def ofSamples (timestamp : UInt64) (channels points : UInt32) (analog : List Level)
    (digital : List Bool) : Except FrameError Frame :=
  let area := channels.toNat * points.toNat
  if analog.length ≠ area then .error (.shapeMismatch channels points analog.length)
  else if digital.length ≠ area then .error (.shapeMismatch channels points digital.length)
  else .ok ⟨timestamp, channels, points, analog, digital⟩

def findRagged (points : Nat) : Nat → List (List Level × List Bool) → Option FrameError
  | _, [] => none
  | index, (analog, digital) :: rest =>
    if analog.length ≠ points then some (.raggedChannel index points analog.length)
    else if digital.length ≠ points then some (.raggedChannel index points digital.length)
    else findRagged points (index + 1) rest

/-- A frame of whole channels. The first analog list says how long every list has to be. -/
def ofChannels (timestamp : UInt64) (channels : List (List Level × List Bool)) :
    Except FrameError Frame :=
  let points := (channels.head?.map (·.1.length)).getD 0
  match findRagged points 0 channels with
  | some e => .error e
  | none => ofSamples timestamp (UInt32.ofNat channels.length) (UInt32.ofNat points)
      (channels.flatMap (·.1)) (channels.flatMap (·.2))

def window {α : Type} (f : Frame) (samples : List α) (channel : UInt32) : List α :=
  (samples.drop (channel.toNat * f.pointsPerChannel.toNat)).take f.pointsPerChannel.toNat

def analogOf (f : Frame) (channel : UInt32) : Option (List Level) :=
  if channel < f.channelCount then some (f.window f.analog channel) else none

def digitalOf (f : Frame) (channel : UInt32) : Option (List Bool) :=
  if channel < f.channelCount then some (f.window f.digital channel) else none

/-- The requested channels, in the order of the request and as often as they are requested.
There is none if one of them does not exist. -/
def select (f : Frame) (channels : List UInt32) : Option Frame :=
  if channels.all (· < f.channelCount) then
    some { f with
      channelCount := UInt32.ofNat channels.length
      analog := channels.flatMap (f.window f.analog)
      digital := channels.flatMap (f.window f.digital) }
  else none

def ofBuffers (timestamp : UInt64) (channels points : UInt32) (analog : List Level)
    (digital : List Bool) : Frame :=
  let area := channels.toNat * points.toNat
  ⟨timestamp, channels, points, analog.take area, digital.take area⟩

/-- Equality of samples as numbers: the two zeros agree, and not-a-number agrees with nothing. -/
def levelsAgree : List Level → List Level → Bool
  | [], [] => true
  | a :: as, b :: bs => Float.ofBits a == Float.ofBits b && levelsAgree as bs
  | _, _ => false

def agrees (f g : Frame) : Bool :=
  f.timestamp == g.timestamp && f.channelCount == g.channelCount
    && f.pointsPerChannel == g.pointsPerChannel && levelsAgree f.analog g.analog
    && f.digital == g.digital

theorem ofSamples_eq_ok_iff {timestamp : UInt64} {channels points : UInt32} {analog : List Level}
    {digital : List Bool} {f : Frame} :
    ofSamples timestamp channels points analog digital = .ok f ↔
      f = ⟨timestamp, channels, points, analog, digital⟩ ∧ f.WellShaped := by
  constructor
  · intro h
    dsimp only [ofSamples] at h
    split at h
    · cases h
    · split at h
      · cases h
      · cases h
        simp_all [WellShaped, area]
  · rintro ⟨rfl, ha, hd⟩
    simp_all [ofSamples, area]

theorem select_eq_none_iff {f : Frame} {channels : List UInt32} :
    f.select channels = none ↔ ∃ c ∈ channels, f.channelCount ≤ c := by
  simp [select]

end Frame
end SampleCast
