import SampleCast.Broadcast.Basic
import SampleCast.Settings.Daemon

/-! What the checks of the daemon's settings accept.
Main statements: `validate_eq_ok_iff`, and `ofSettings_eq_ok`, that a server can be set up with what
they accept. -/

namespace SampleCast

section

variable {ε δ α β : Type} {x : Except ε α}

theorem bind_eq_ok_iff {f : α → Except ε β} {b : β} :
    (x >>= f) = .ok b ↔ ∃ a, x = .ok a ∧ f a = .ok b := by
  cases x with
  | error e => exact ⟨nofun, nofun⟩
  | ok a => exact ⟨fun h => ⟨a, rfl, h⟩, fun ⟨_, ha, h⟩ => by cases ha; exact h⟩

theorem mapError_eq_ok_iff {f : ε → δ} {a : α} : x.mapError f = .ok a ↔ x = .ok a := by
  cases x with
  | error e => exact ⟨nofun, nofun⟩
  | ok a => exact ⟨fun h => by cases h; rfl, fun h => by cases h; rfl⟩

end

theorem SourceSettings.validate_eq_ok_iff {s : SourceSettings} :
    s.validate = .ok () ↔ s.channels ≠ 0 ∧ s.samplingRate ≠ 0 ∧ s.pointsPerCall ≠ 0 := by
  unfold validate flaw?
  by_cases hc : s.channels = 0
  · simp [hc]
  by_cases hr : s.samplingRate = 0
  · simp [hc, hr]
  by_cases hp : s.pointsPerCall = 0
  · simp [hc, hr, hp]
  · simp [hc, hr, hp]

namespace DaemonSettings

variable {s : DaemonSettings}

structure Checked (s : DaemonSettings) : Prop where
  server : s.server.validate = .ok ()
  channels : s.source.channels ≠ 0
  rate : s.source.samplingRate ≠ 0
  points : s.source.pointsPerCall ≠ 0
  payload : s.server.validateFor s.source.channels = .ok ()
  call : s.source.pointsPerCall ≤ s.server.pointsPerChannel

theorem validate_eq_ok_iff : s.validate = .ok () ↔ s.Checked := by
  have hcall : (if s.server.pointsPerChannel < s.source.pointsPerCall then
      .error (.invalid (.callTooLong s.source.pointsPerCall s.server.pointsPerChannel))
      else .ok () : Except SettingsError Unit) = .ok () ↔
        s.source.pointsPerCall ≤ s.server.pointsPerChannel := by
    by_cases hlt : s.server.pointsPerChannel < s.source.pointsPerCall
    · simp [hlt]
    · simp [hlt, UInt32.not_lt.mp hlt]
  simp only [validate, bind_eq_ok_iff, mapError_eq_ok_iff, hcall]
  constructor
  · rintro ⟨⟨⟩, hserver, ⟨⟩, hsource, ⟨⟩, hpayload, hle⟩
    obtain ⟨hchannels, hrate, hpoints⟩ := SourceSettings.validate_eq_ok_iff.mp hsource
    exact ⟨hserver, hchannels, hrate, hpoints, hpayload, hle⟩
  · rintro ⟨hserver, hchannels, hrate, hpoints, hpayload, hle⟩
    have hsource := SourceSettings.validate_eq_ok_iff.mpr ⟨hchannels, hrate, hpoints⟩
    exact ⟨(), hserver, (), hsource, (), hpayload, hle⟩

def station (s : DaemonSettings) : Station := ⟨s.server, s.source.channels, s.source.samplingRate⟩

theorem ofSettings_eq_ok (h : s.Checked) :
    Station.ofSettings s.server s.source.device.source = .ok s.station := by
  have hpayload : s.server.validateFor s.source.device.source.channelCount = .ok () := h.payload
  simp only [Station.ofSettings, h.server, hpayload]
  rfl

end DaemonSettings
end SampleCast
