import Mathlib.Algebra.GroupWithZero.Nat
import Mathlib.Data.List.Induction
import SampleCast.Proofs.Source.InPlace

/-! The pattern over many calls.
A caller may ask for any number of points and bring buffers of any length. What it gets for a
channel, call after call, is the pattern of that channel from its first point on: a call that is
refused takes nothing away and a block that is cut short is continued by the next one. Main
statement: `pattern_unbroken`. -/

namespace SampleCast.Device

structure Call where
  maxPoints : UInt32
  buffers : SampleBuffers

structure Served where
  call : Call
  before : DeviceState
  result : Except SourceError UInt32
  buffers : SampleBuffers
  after : DeviceState

/-- A delivery keeps its distance in time from the one before, and there is no such distance in
real time at rate zero. -/
def serve? (d : Device) (s : DeviceState) (c : Call) : Option Served := do
  let (result, buffers, after) ← d.acquire? s c.maxPoints c.buffers
  let served : Served := ⟨c, s, result, buffers, after⟩
  match result with
  | .error _ => some served
  | .ok points => (d.pacing.interval? points d.rate).map fun _ => served

def serveAll? (d : Device) (s : DeviceState) : List Call → Option (List Served)
  | [] => some []
  | c :: calls => do
    let x ← d.serve? s c
    return x :: (← d.serveAll? x.after calls)

def window {α : Type} (channel points : Nat) (buffer : List α) : List α :=
  (buffer.drop (channel * points)).take points

def Faulty (d : Device) (count : Nat) : Prop := ∃ limit ∈ d.faultAfter, limit ≤ count

namespace Served

def points (x : Served) : Nat :=
  match x.result with
  | .ok points => points.toNat
  | .error _ => 0

def analogOf (channel : Nat) (x : Served) : List Level := window channel x.points x.buffers.analog

def digitalOf (channel : Nat) (x : Served) : List Bool := window channel x.points x.buffers.digital

structure Refused (x : Served) (e : SourceError) : Prop where
  result : x.result = .error e
  buffers : x.buffers = x.call.buffers
  after : x.after = x.before

/-- The call wrote a block that begins at a point of the pattern, channel by channel, to the start
of both buffers, and nothing else. -/
structure Filled (x : Served) (d : Device) (start : Nat) (points : UInt32) : Prop where
  result : x.result = .ok points
  analog : x.buffers.analog = (stack 0 d.channels.toNat fun _ => ramp start points.toNat) ++
    x.call.buffers.analog.drop (d.channels.toNat * points.toNat)
  digital : x.buffers.digital = (stack 0 d.channels.toNat fun c => trigger c start points.toNat) ++
    x.call.buffers.digital.drop (d.channels.toNat * points.toNat)
  after : x.after = ⟨(start + points.toNat) % period, x.before.calls + 1⟩

structure Proper (x : Served) (d : Device) (start count : Nat) : Prop where
  before : x.before = ⟨start % period, count⟩
  faulty : d.Faulty count → x.Refused (.device s!"simulated fault after {count} calls")
  sound : ¬ d.Faulty count →
    let points := min d.pointsPerCall x.call.maxPoints
    let needed := d.channels.toNat * points.toNat
    let actual := min x.call.buffers.analog.length x.call.buffers.digital.length
    (actual < needed → x.Refused (.bufferTooSmall needed actual)) ∧
    (needed ≤ actual → x.Filled d start points)

end Served

def pointsOf (served : List Served) : Nat := (served.map (·.points)).sum

def deliveries (served : List Served) : Nat := served.countP (·.result.isOk)

variable {d : Device} {channel start count n k : Nat} {x : Served}

theorem pointsOf_concat (served : List Served) :
    pointsOf (served ++ [x]) = pointsOf served + x.points := by
  rw [pointsOf, List.map_append, List.sum_append, List.map_singleton, List.sum_singleton, pointsOf]

theorem deliveries_concat (served : List Served) :
    deliveries (served ++ [x]) = deliveries served + if x.result.isOk then 1 else 0 := by
  rw [deliveries, List.countP_append, List.countP_singleton, deliveries]

theorem ramp_mod : ramp (start % period) n = ramp start n := by
  simp only [ramp, analogValue, Nat.mod_add_mod]

theorem trigger_mod : trigger channel (start % period) n = trigger channel start n := by
  simp only [trigger, digitalValue, Nat.mod_add_mod]

theorem stack_append {α : Type} (i j : Nat) (block : Nat → List α) :
    stack channel i block ++ stack (channel + i) j block = stack channel (i + j) block := by
  rw [stack, stack, stack, ← List.flatMap_append, List.range'_append_1]

theorem window_stack {α : Type} {block : Nat → List α} (rest : List α)
    (hb : ∀ c, (block c).length = n) (hc : channel < k) :
    window channel n (stack 0 k block ++ rest) = block channel := by
  have hsplit : stack 0 k block =
      stack 0 channel block ++ (block channel ++ stack (channel + 1) (k - channel - 1) block) := by
    have hk : k = channel + (k - channel - 1 + 1) := by omega
    rw [← stack_succ]
    conv_lhs => rw [hk, ← stack_append, Nat.zero_add]
  rw [window, hsplit, List.append_assoc, List.append_assoc, List.drop_left' (length_stack hb),
    List.take_left' (hb channel)]

namespace Served

theorem Refused.points_eq {e : SourceError} (h : x.Refused e) : x.points = 0 := by
  rw [points, h.result]

theorem Filled.points_eq {points : UInt32} (h : x.Filled d start points) :
    x.points = points.toNat := by
  rw [Served.points, h.result]

theorem Proper.cases (h : x.Proper d start count) :
    (∃ e, x.Refused e) ∨ ∃ points, x.Filled d start points := by
  by_cases hfault : d.Faulty count
  · exact .inl ⟨_, h.faulty hfault⟩
  · obtain ⟨hshort, hfull⟩ := h.sound hfault
    rcases Nat.lt_or_ge (min x.call.buffers.analog.length x.call.buffers.digital.length)
      (d.channels.toNat * (min d.pointsPerCall x.call.maxPoints).toNat) with hroom | hroom
    · exact .inl ⟨_, hshort hroom⟩
    · exact .inr ⟨_, hfull hroom⟩

theorem Proper.after_eq {earlier : List Served}
    (h : x.Proper d (pointsOf earlier) (deliveries earlier)) :
    x.after = ⟨pointsOf (earlier ++ [x]) % period, deliveries (earlier ++ [x])⟩ := by
  rw [pointsOf_concat, deliveries_concat]
  rcases h.cases with ⟨e, hx⟩ | ⟨points, hx⟩
  · rw [hx.after, h.before, hx.points_eq, hx.result]
    rfl
  · rw [hx.after, h.before, hx.points_eq, hx.result]
    rfl

theorem Proper.analogOf_eq (h : x.Proper d start count) (hc : channel < d.channels.toNat) :
    x.analogOf channel = ramp start x.points := by
  rcases h.cases with ⟨e, hx⟩ | ⟨points, hx⟩
  · rw [analogOf, hx.points_eq]
    exact List.take_zero
  · rw [analogOf, hx.points_eq, hx.analog, window_stack _ (fun _ => length_ramp) hc]

theorem Proper.digitalOf_eq (h : x.Proper d start count) (hc : channel < d.channels.toNat) :
    x.digitalOf channel = trigger channel start x.points := by
  rcases h.cases with ⟨e, hx⟩ | ⟨points, hx⟩
  · rw [digitalOf, hx.points_eq]
    exact List.take_zero
  · rw [digitalOf, hx.points_eq, hx.digital, window_stack _ (fun _ => length_trigger) hc]

end Served

theorem interval?_isSome (hrate : d.rate ≠ 0) (points : UInt32) :
    ∃ interval, d.pacing.interval? points d.rate = some interval := by
  cases d.pacing with
  | realTime => exact ⟨_, if_neg hrate⟩
  | none => exact ⟨_, rfl⟩
  | fixedMillis millis => exact ⟨_, rfl⟩

theorem overlay_eq_append {α : Type} {written buffer : List α}
    (h : written.length ≤ buffer.length) :
    overlay written buffer = written ++ buffer.drop written.length := by
  rw [overlay, List.take_of_length_le h]

theorem faulty_iff : d.faultAfter.any (· ≤ count) = true ↔ d.Faulty count := by
  simp only [Faulty, Option.any_eq_true, Option.mem_def, decide_eq_true_eq]

section

variable {s : DeviceState} {c : Call}

theorem serve?_faulty (h : d.Faulty s.calls) :
    d.serve? s c = some ⟨c, s, .error (.device s!"simulated fault after {s.calls} calls"),
      c.buffers, s⟩ := by
  rw [serve?, acquire?, if_pos (faulty_iff.mpr h)]
  rfl

theorem serve?_short (hs : s.phase < period) (h : ¬ d.Faulty s.calls)
    (hroom : min c.buffers.analog.length c.buffers.digital.length <
      d.channels.toNat * (d.pointsFor c.maxPoints).toNat) :
    d.serve? s c = some ⟨c, s,
      .error (.bufferTooSmall (d.channels.toNat * (d.pointsFor c.maxPoints).toNat)
        (min c.buffers.analog.length c.buffers.digital.length)), c.buffers, s⟩ := by
  rw [serve?, acquire?_eq hs d c.maxPoints default c.buffers, acquire,
    if_neg (mt faulty_iff.mp h), if_pos hroom]
  simp only [overlay_nil]
  rfl

theorem serve?_full {area : Nat} (hrate : d.rate ≠ 0) (hs : s.phase < period)
    (h : ¬ d.Faulty s.calls)
    (harea : d.channels.toNat * (d.pointsFor c.maxPoints).toNat = area)
    (ha : area ≤ c.buffers.analog.length) (hd : area ≤ c.buffers.digital.length) :
    d.serve? s c = some ⟨c, s, .ok (d.pointsFor c.maxPoints),
      ⟨(stack 0 d.channels.toNat fun _ => ramp s.phase (d.pointsFor c.maxPoints).toNat) ++
          c.buffers.analog.drop area,
        (stack 0 d.channels.toNat fun c' => trigger c' s.phase (d.pointsFor c.maxPoints).toNat) ++
          c.buffers.digital.drop area⟩,
      ⟨(s.phase + (d.pointsFor c.maxPoints).toNat) % period, s.calls + 1⟩⟩ := by
  rw [serve?, acquire?_eq hs d c.maxPoints default c.buffers, acquire,
    if_neg (mt faulty_iff.mp h), if_neg (by simp only [harea]; omega)]
  generalize d.pointsFor c.maxPoints = points at *
  obtain ⟨interval, hinterval⟩ := interval?_isSome hrate points
  have hanalog : (stack 0 d.channels.toNat fun _ => ramp s.phase points.toNat).length = area :=
    (length_stack fun _ => length_ramp).trans harea
  have hdigital :
      (stack 0 d.channels.toNat fun c => trigger c s.phase points.toNat).length = area :=
    (length_stack fun _ => length_trigger).trans harea
  simp only [Option.bind_eq_bind, Option.bind_some, perChannel_ramp, perChannel_trigger,
    hinterval, Option.map_some]
  rw [overlay_eq_append (by omega), overlay_eq_append (by omega), hanalog, hdigital]

end

theorem serve?_proper (hrate : d.rate ≠ 0) (start count : Nat) (c : Call) :
    ∃ x, d.serve? ⟨start % period, count⟩ c = some x ∧ x.call = c ∧ x.Proper d start count := by
  have hphase : start % period < period := Nat.mod_lt _ (by decide)
  by_cases hfault : d.Faulty count
  · refine ⟨_, serve?_faulty hfault, rfl, ?_⟩
    constructor
    case before => rfl
    case faulty => exact fun _ => ⟨rfl, rfl, rfl⟩
    case sound => exact fun h => absurd hfault h
  rcases Nat.lt_or_ge (min c.buffers.analog.length c.buffers.digital.length)
    (d.channels.toNat * (d.pointsFor c.maxPoints).toNat) with hroom | hroom
  · refine ⟨_, serve?_short hphase hfault hroom, rfl, ?_⟩
    constructor
    case before => rfl
    case faulty => exact fun h => absurd h hfault
    case sound => exact fun _ =>
      ⟨fun _ => ⟨rfl, rfl, rfl⟩, fun h => absurd hroom (Nat.not_lt_of_le h)⟩
  · obtain ⟨ha, hd⟩ := Nat.le_min.mp hroom
    have hfull := serve?_full (s := ⟨start % period, count⟩) hrate hphase hfault rfl ha hd
    simp only [ramp_mod, trigger_mod, Nat.mod_add_mod] at hfull
    refine ⟨_, hfull, rfl, ?_⟩
    constructor
    case before => rfl
    case faulty => exact fun h => absurd h hfault
    case sound => exact fun _ =>
      ⟨fun h => absurd h (Nat.not_lt_of_le hroom), fun _ => ⟨rfl, rfl, rfl, rfl⟩⟩

theorem serveAll?_proper (hrate : d.rate ≠ 0) (earlier : List Served) (calls : List Call) :
    ∃ served, d.serveAll? ⟨pointsOf earlier % period, deliveries earlier⟩ calls = some served ∧
      served.map (·.call) = calls ∧
      ∀ before x after, served = before ++ x :: after →
        x.Proper d (pointsOf (earlier ++ before)) (deliveries (earlier ++ before)) := by
  induction calls generalizing earlier with
  | nil => exact ⟨[], rfl, rfl, fun before x after h => by simp at h⟩
  | cons c calls ih =>
    obtain ⟨x, hx, hcall, hproper⟩ := serve?_proper hrate (pointsOf earlier) (deliveries earlier) c
    obtain ⟨served, hserved, hcalls, hrest⟩ := ih (earlier ++ [x])
    refine ⟨x :: served, ?_, ?_, fun before y after hy => ?_⟩
    · rw [serveAll?, hx, Option.bind_eq_bind, Option.bind_some, hproper.after_eq, hserved]
      rfl
    · rw [List.map_cons, hcall, hcalls]
    · cases before with
      | nil =>
        obtain ⟨rfl, -⟩ := List.cons.inj hy
        rwa [List.append_nil]
      | cons z before =>
        obtain ⟨rfl, htail⟩ := List.cons.inj hy
        rw [List.append_cons]
        exact hrest before y after htail

theorem flatMap_consecutive {α : Type} {served : List Served} {samples : Served → List α}
    {value : Nat → α}
    (h : ∀ earlier x later, served = earlier ++ x :: later →
      samples x = (List.range x.points).map fun i => value (pointsOf earlier + i)) :
    served.flatMap samples = (List.range (pointsOf served)).map value := by
  induction served using List.reverseRecOn with
  | nil => rfl
  | append_singleton served x ih =>
    have hserved : served.flatMap samples = (List.range (pointsOf served)).map value :=
      ih fun earlier y later hy => h earlier y (later ++ [x]) (by rw [hy]; simp)
    rw [List.flatMap_append, hserved, List.flatMap_singleton, h served x [] rfl, pointsOf_concat,
      List.range_add, List.map_append, List.map_map]
    rfl

/-- However the calls are cut and whichever of them fail, the samples of a channel over all of them
are its pattern from the first point on, each call does what `Proper` says, and no position in a
buffer is missed. -/
theorem pattern_unbroken (d : Device) (hrate : d.rate ≠ 0) (calls : List Call) :
    ∃ served, d.serveAll? {} calls = some served ∧ served.map (·.call) = calls ∧
      (∀ channel < d.channels.toNat,
        served.flatMap (·.analogOf channel) = (List.range (pointsOf served)).map analogValue ∧
        served.flatMap (·.digitalOf channel) =
          (List.range (pointsOf served)).map (digitalValue channel)) ∧
      ∀ earlier x later, served = earlier ++ x :: later →
        x.Proper d (pointsOf earlier) (deliveries earlier) := by
  obtain ⟨served, hserved, hcalls, hproper⟩ := serveAll?_proper hrate [] calls
  simp only [List.nil_append] at hproper
  refine ⟨served, hserved, hcalls, ?_, hproper⟩
  intro channel hchannel
  constructor
  · refine flatMap_consecutive ?_
    intro earlier x later h
    exact (hproper earlier x later h).analogOf_eq hchannel
  · refine flatMap_consecutive ?_
    intro earlier x later h
    exact (hproper earlier x later h).digitalOf_eq hchannel

def pair : Device where
  channels := 2
  rate := 1000
  pointsPerCall := 4
  pacing := .realTime
  faultAfter := some 3

def pairCall (maxPoints : UInt32) (analogRoom digitalRoom : Nat) : Call :=
  ⟨maxPoints, List.replicate analogRoom 0, List.replicate digitalRoom false⟩

def pairCalls : List Call :=
  [pairCall 9 8 8, pairCall 3 6 5, pairCall 3 7 9, pairCall 4 8 8, pairCall 1 8 8]

theorem pattern_unbroken_pair :
    pair.rate ≠ 0 ∧ ∃ served, pair.serveAll? {} pairCalls = some served ∧
      served.map (·.result) = [.ok 4, .error (.bufferTooSmall 6 5), .ok 3, .ok 4,
        .error (.device "simulated fault after 3 calls")] ∧
      served.flatMap (·.analogOf 1) = (List.range 11).map analogValue ∧
      served.flatMap (·.digitalOf 1) =
        [false, true, false, false, false, false, true, false, false, false, false] := by
  have hrate : pair.rate ≠ 0 := by decide
  obtain ⟨served, hserved, -, hsamples, -⟩ := pattern_unbroken pair hrate pairCalls
  obtain ⟨hanalog, hdigital⟩ := hsamples 1 (by decide)
  have hresults : (pair.serveAll? {} pairCalls).map (·.map (·.result)) =
      some [.ok 4, .error (.bufferTooSmall 6 5), .ok 3, .ok 4,
        .error (.device "simulated fault after 3 calls")] := by rfl
  have hpoints : (pair.serveAll? {} pairCalls).map pointsOf = some 11 := by rfl
  rw [hserved] at hresults hpoints
  rw [Option.some.inj hpoints] at hanalog hdigital
  exact ⟨hrate, served, hserved, Option.some.inj hresults, hanalog, hdigital⟩

end SampleCast.Device
