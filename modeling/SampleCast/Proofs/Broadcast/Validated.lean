import SampleCast.Proofs.Producer.Tape
import SampleCast.Proofs.Settings.Daemon
import SampleCast.Proofs.Source.InPlace

/-! Servers with checked settings.
The checks see to it that the buffers have room for what the device is asked for, that it is asked
for as much as it delivers, and that it delivers something. `Steady` is what follows for the
producer, and each of its actions keeps it. Main statement: `run_of_validate`, that a server with
checked settings over the device that they describe can be set up, and in every course its producer
does not fail, has no empty read and publishes blocks of one shape. -/

namespace SampleCast

def ProducerPhase.IsSound (points : UInt32) : ProducerPhase → Prop
  | .failing _ | .ended (.error _) => False
  | .publishing n | .opening n _ => n = points
  | .awaiting | .acquiring | .ended (.ok _) => True

namespace DaemonSettings

variable {s : DaemonSettings} {p p' : Producer DeviceState} {hub hub' : Hub}

structure Steady (s : DaemonSettings) (p : Producer DeviceState) : Prop where
  filled : p.Filled s.station
  phase : p.source.phase < Device.period
  sound : p.phase.IsSound s.source.pointsPerCall
  emptyReads : p.stats.emptyReads = 0

theorem Steady.start : s.Steady (.start s.station {}) :=
  ⟨Producer.filled_start, Nat.zero_lt_succ 9, trivial, rfl⟩

theorem pointsFor_checked (h : s.Checked) :
    s.source.device.pointsFor s.server.pointsPerChannel = s.source.pointsPerCall :=
  if_pos h.call

theorem judge_checked (h : s.Checked) :
    Producer.judge s.station (.ok s.source.pointsPerCall) = .publishing s.source.pointsPerCall := by
  have hle : ¬ s.station.settings.pointsPerChannel < s.source.pointsPerCall :=
    UInt32.not_lt.mpr h.call
  simp only [Producer.judge, if_neg hle, if_neg h.points]

theorem countEmpty_checked (h : s.Checked) (stats : ProducerStats) :
    Producer.countEmpty stats (.ok s.source.pointsPerCall) = stats := by
  unfold Producer.countEmpty
  split
  · next h0 => exact absurd (Except.ok.inj h0) h.points
  · rfl

theorem acquire_checked (h : s.Checked) (hp : p.Filled s.station) :
    (s.source.device.acquire p.source (p.demand s.station)).1.result =
        .ok s.source.pointsPerCall ∧
      (s.source.device.acquire p.source (p.demand s.station)).2.phase < Device.period := by
  have hnone : ¬ s.source.device.faultAfter.any (· ≤ p.source.calls) = true := nofun
  have hpoints : s.source.device.pointsFor (p.demand s.station).maxPoints =
      s.source.pointsPerCall := pointsFor_checked h
  have hroom : ¬ min (p.demand s.station).analogRoom (p.demand s.station).digitalRoom <
      s.source.device.channels.toNat * s.source.pointsPerCall.toNat := by
    have hle : s.source.channels.toNat * s.source.pointsPerCall.toNat ≤
        s.station.channelCount.toNat * s.station.settings.pointsPerChannel.toNat :=
      Nat.mul_le_mul_left _ (UInt32.le_iff_toNat_le.mp h.call)
    rw [hp.demand]
    exact Nat.not_lt.mpr (Nat.le_min.mpr ⟨hle, hle⟩)
  rw [Device.acquire, if_neg hnone, hpoints, if_neg hroom]
  exact ⟨rfl, Nat.mod_lt _ (Nat.zero_lt_succ 9)⟩

theorem Steady.step (h : s.Checked) (hp : s.Steady p)
    (hs : Producer.Step s.source.device.source s.station hub p hub' p') : s.Steady p' := by
  have hfilled := hs.filled hp.filled
  cases hs with
  | halt hphase hr => exact ⟨hfilled, hp.phase, trivial, hp.emptyReads⟩
  | ready hphase hr => exact ⟨hfilled, hp.phase, trivial, hp.emptyReads⟩
  | @acquire d s' hphase hd =>
    obtain ⟨hresult, hnext⟩ := acquire_checked h hp.filled
    change s.source.device.acquire p.source (p.demand s.station) = (d, s') at hd
    rw [hd] at hresult hnext
    refine ⟨hfilled, hnext, ?_, ?_⟩
    · change (Producer.judge s.station d.result).IsSound _
      rw [hresult, judge_checked h]
      rfl
    · change (Producer.countEmpty p.stats d.result).emptyReads = 0
      rw [hresult, countEmpty_checked h]
      exact hp.emptyReads
  | publish hphase =>
    have hsound := hp.sound
    rw [hphase] at hsound
    exact ⟨hfilled, hp.phase, hsound, hp.emptyReads⟩
  | advance hphase => exact ⟨hfilled, hp.phase, trivial, hp.emptyReads⟩
  | fail hphase =>
    have hsound := hp.sound
    rw [hphase] at hsound
    exact hsound.elim

theorem Steady.result?_ne (hp : s.Steady p) (e : ProducerError) : p.result? ≠ some (.error e) := by
  have hsound := hp.sound
  unfold Producer.result?
  cases hphase : p.phase with
  | ended r =>
    rw [hphase] at hsound
    cases r with
    | error e => exact hsound.elim
    | ok stats => exact nofun
  | _ => exact nofun

def IsBlock (s : DaemonSettings) (f : Frame) : Prop :=
  f.channelCount = s.source.channels ∧ f.pointsPerChannel = s.source.pointsPerCall

theorem steady_run (h : s.Checked) (schedule : List Broadcast.Action) :
    let r := Course.run s.source.device.source s.station {} schedule
    s.Steady r.present.producer ∧ ∀ slot ∈ r.published, s.IsBlock slot.frame := by
  refine Course.run_induction
    (P := fun r => s.Steady r.present.producer ∧ ∀ slot ∈ r.published, s.IsBlock slot.frame)
    ⟨.start, nofun⟩ (fun r a b hr hs => ⟨?_, ?_⟩) schedule
  · cases hs with
    | produce hp => exact hr.1.step h hp
    | _ => exact hr.1
  · rw [Course.published_concat]
    intro slot hslot
    rcases List.mem_append.mp hslot with hslot | hslot
    · exact hr.2 slot hslot
    · rcases hs.slot a with ⟨-, hnone⟩ | ⟨points, hphase, hnew, hsome⟩
      · rw [hnone] at hslot
        cases hslot
      · rw [hsome, Option.toList_some, List.mem_singleton, hnew] at hslot
        have hsound := hr.1.sound
        rw [hphase] at hsound
        rw [hslot]
        exact ⟨rfl, hsound⟩

/-- A server can be set up with checked settings over the device that they describe, unless the
system refuses the address. Whatever its clients do, its producer neither fails nor has an empty
read, every position in its buffers exists, and every block has the channels and the points of the
device. -/
theorem run_of_validate (s : DaemonSettings) (h : s.validate = .ok ()) :
    let source := s.source.device.source
    (∀ refusal, Station.bind s.server source refusal =
      match refusal with
      | some f => .error (.bind s.server.socketText f)
      | none => .ok s.station) ∧
    (s.source.samplingRate.toNat ≠ 0 ∧ ∀ points,
      Pacing.realTime.interval? points s.source.samplingRate =
        some (points.toNat, s.source.samplingRate.toNat)) ∧
    ∀ schedule,
      let r := Course.run source s.station {} schedule
      let p := r.present.producer
      let answer := source.acquire p.source (p.demand s.station)
      let after := p.receive s.station answer.1 answer.2
      (∀ e, p.phase ≠ .failing e ∧ p.result? ≠ some (.error e)) ∧ p.stats.emptyReads = 0 ∧
      (Payload.mul? s.source.channels.toNat s.server.pointsPerChannel.toNat = some p.analog.length ∧
        p.digital.length = p.analog.length ∧
        s.source.device.acquire? p.source s.server.pointsPerChannel ⟨p.analog, p.digital⟩ =
          some (.ok s.source.pointsPerCall, ⟨after.analog, after.digital⟩, answer.2) ∧
        ∀ points, p.phase = .publishing points →
          r.present.hub.slot.frame.refill?
            (timestampAt s.source.samplingRate p.stats.totalPoints) s.source.channels points
            ⟨p.analog, p.digital⟩ = some (p.block s.station points)) ∧
      ∀ slot ∈ r.published, slot.frame.channelCount = s.source.channels ∧
        slot.frame.pointsPerChannel = s.source.pointsPerCall ∧ slot.frame.WellShaped := by
  have h := validate_eq_ok_iff.mp h
  intro source
  refine ⟨fun refusal => ?_, ⟨?_, fun points => if_neg h.rate⟩, ?_⟩
  · rw [Station.bind, ofSettings_eq_ok h]
    cases refusal <;> rfl
  · exact fun h0 => h.rate (UInt32.toNat_inj.mp h0)
  · intro schedule r p answer after
    obtain ⟨hp, hblocks⟩ := steady_run h schedule
    have hpublication : r.Publication s.station := Course.publication schedule
    refine ⟨fun e => ⟨fun hphase => ?_, hp.result?_ne e⟩, hp.emptyReads, ⟨?_, ?_, ?_, ?_⟩, ?_⟩
    · have hsound : p.phase.IsSound s.source.pointsPerCall := hp.sound
      rw [hphase] at hsound
      exact hsound
    · rw [Payload.mul?_of_lt (Nat.mul_lt_mul'' (UInt32.toNat_lt _) (UInt32.toNat_lt _))]
      exact congrArg some hp.filled.analog.symm
    · exact hp.filled.digital.trans hp.filled.analog.symm
    · have hplace := Device.acquire?_eq hp.phase s.source.device s.server.pointsPerChannel
        (p.demand s.station).timeout ⟨p.analog, p.digital⟩
      have hresult : answer.1.result = .ok s.source.pointsPerCall :=
        (acquire_checked h hp.filled).1
      rw [← hresult]
      exact hplace
    · intro points hphase
      have hroom : s.source.channels.toNat * points.toNat ≤
          s.station.channelCount.toNat * s.station.settings.pointsPerChannel.toNat :=
        Nat.mul_le_mul_left _ (UInt32.le_iff_toNat_le.mp (hp.filled.bounded points hphase))
      exact Frame.refill?_eq (le_of_le_of_eq hroom hp.filled.analog.symm)
        (le_of_le_of_eq hroom hp.filled.digital.symm)
    · intro slot hslot
      exact ⟨(hblocks slot hslot).1, (hblocks slot hslot).2, hpublication.shaped slot hslot⟩

def duet : DaemonSettings where
  server := { ServerSettings.loopback with pointsPerChannel := 4 }
  source := { channels := 2, samplingRate := 1000, pointsPerCall := 3, pacing := .realTime }

open Broadcast.Action in
def duetSchedule : List Broadcast.Action :=
  [look, produce, arrive [.chunk [0, 0]], produce, feed 0 (.upTo 1)] ++ List.replicate 7 produce

theorem run_of_validate_duet :
    let r := Course.run duet.source.device.source duet.station {} duetSchedule
    duet.validate = .ok () ∧
    Station.bind duet.server duet.source.device.source none = .ok duet.station ∧
    Pacing.realTime.interval? 3 duet.source.samplingRate = some (3, 1000) ∧
    r.published.map (·.generation) = [1, 2] ∧ r.present.producer.stats.emptyReads = 0 ∧
    ∃ slot ∈ r.published, slot.frame.channelCount = 2 ∧ slot.frame.pointsPerChannel = 3 ∧
      slot.frame.WellShaped := by
  intro r
  have hvalid : duet.validate = .ok () := by rfl
  obtain ⟨hbind, ⟨-, hpacing⟩, hrun⟩ := run_of_validate duet hvalid
  obtain ⟨-, hempty, -, hblocks⟩ := hrun duetSchedule
  have hpublished : r.published.map (·.generation) = [1, 2] := by decide +kernel
  have hone : 1 ∈ r.published.map (·.generation) := by
    rw [hpublished]
    exact List.mem_cons_self
  obtain ⟨slot, hslot, -⟩ := List.mem_map.mp hone
  exact ⟨hvalid, hbind none, hpacing 3, hpublished, hempty, slot, hslot, hblocks slot hslot⟩

end DaemonSettings
end SampleCast
