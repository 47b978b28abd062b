import SampleCast.Proofs.Wire.Payload
import SampleCast.Settings.Server

/-! The size of a payload and the limit for it.
The settings know two checks of the limit. One computes the size of a full block and compares it,
the other divides what the limit leaves behind the header by the room of one channel. Both are
computed in steps that stop at the largest word. Main statement: `limits_agree`, that as long as
the size itself is a word the two checks accept the same numbers of channels, and that no frame of
so many channels is larger than the settings say. -/

namespace SampleCast

open Payload (headerSize bytesPerPoint)

namespace ServerSettings

variable {s : ServerSettings} {channels : UInt32} {f : Frame}

def saturate (n : Nat) : Nat := min largestWord n

/-- The size of a payload as it is computed, where each step stops at the largest word. -/
def payloadSizeByStep (s : ServerSettings) (channels : UInt32) : Nat :=
  saturate (saturate (saturate (channels.toNat * s.pointsPerChannel.toNat) * bytesPerPoint)
    + headerSize)

def maxChannelsByStep (s : ServerSettings) : UInt32 :=
  let perChannel := saturate (s.pointsPerChannel.toNat * bytesPerPoint)
  if perChannel = 0 then UInt32.ofNat (UInt32.size - 1)
  else
    let room := (s.maxMessageSize.toNat - headerSize) / perChannel
    if room < UInt32.size then UInt32.ofNat room else UInt32.ofNat (UInt32.size - 1)

theorem saturate_of_lt {n : Nat} (h : n < UInt64.size) : saturate n = n :=
  Nat.min_eq_right (Nat.le_sub_one_of_lt h)

theorem saturate_saturate_mul {n k : Nat} (hk : 0 < k) :
    saturate (saturate n * k) = saturate (n * k) := by
  unfold saturate
  rcases Nat.le_total n largestWord with hn | hn
  · rw [Nat.min_eq_right hn]
  · have hle : largestWord ≤ largestWord * k := Nat.le_mul_of_pos_right _ hk
    rw [Nat.min_eq_left hn, Nat.min_eq_left hle,
      Nat.min_eq_left (Nat.le_trans hle (Nat.mul_le_mul_right k hn))]

theorem saturate_saturate_add {n k : Nat} : saturate (saturate n + k) = saturate (n + k) := by
  unfold saturate
  omega

theorem payloadSize_eq_byStep : s.payloadSize channels = s.payloadSizeByStep channels := by
  rw [payloadSizeByStep, saturate_saturate_mul (by decide), saturate_saturate_add]
  rfl

theorem maxChannelsPerMessage_eq_byStep : s.maxChannelsPerMessage = s.maxChannelsByStep := by
  have hword : s.pointsPerChannel.toNat * bytesPerPoint < UInt64.size :=
    Nat.lt_trans (Nat.mul_lt_mul_of_pos_right (UInt32.toNat_lt _) (by decide)) (by decide)
  simp only [maxChannelsPerMessage, maxChannelsByStep, saturate_of_lt hword]
  congr 1
  generalize (s.maxMessageSize.toNat - headerSize) / (s.pointsPerChannel.toNat * bytesPerPoint) =
    room
  by_cases hroom : room < UInt32.size
  · rw [if_pos hroom, Nat.min_eq_right (Nat.le_sub_one_of_lt hroom)]
  · rw [if_neg hroom, Nat.min_eq_left (by omega)]

theorem le_maxChannelsPerMessage_iff {n : Nat}
    (hpoints : s.pointsPerChannel ≠ 0) (hn : 0 < n) (hword : n < UInt32.size) :
    n ≤ s.maxChannelsPerMessage.toNat ↔
      headerSize + n * s.pointsPerChannel.toNat * bytesPerPoint ≤ s.maxMessageSize.toNat := by
  have hpos : 0 < s.pointsPerChannel.toNat :=
    Nat.pos_of_ne_zero fun h => hpoints (UInt32.toNat_inj.mp h)
  have hper : 0 < s.pointsPerChannel.toNat * bytesPerPoint := Nat.mul_pos hpos (by decide)
  have hroom : 0 < n * (s.pointsPerChannel.toNat * bytesPerPoint) := Nat.mul_pos hn hper
  have hcap : min (UInt32.size - 1) ((s.maxMessageSize.toNat - headerSize) /
      (s.pointsPerChannel.toNat * bytesPerPoint)) < UInt32.size :=
    Nat.lt_of_le_of_lt (Nat.min_le_left ..) (by decide)
  -- What the division drops is less than the room of one channel.
  rw [maxChannelsPerMessage, if_neg (by omega), UInt32.toNat_ofNat_of_lt' hcap, Nat.le_min,
    Nat.le_div_iff_mul_le hper, Nat.mul_assoc]
  omega

theorem payloadSize_of_lt
    (h : headerSize + channels.toNat * s.pointsPerChannel.toNat * bytesPerPoint < UInt64.size) :
    s.payloadSize channels =
      headerSize + channels.toNat * s.pointsPerChannel.toNat * bytesPerPoint := by
  rw [Nat.add_comm] at h ⊢
  exact saturate_of_lt h

theorem validateFor_eq_ok_iff :
    s.validateFor channels = .ok () ↔ s.payloadSize channels ≤ s.maxMessageSize.toNat := by
  unfold validateFor
  by_cases h : s.maxMessageSize.toNat < s.payloadSize channels
  · simp [h]
  · simp [h, Nat.not_lt.mp h]

theorem size_le_full (hf : f.WellShaped) (hle : f.pointsPerChannel ≤ s.pointsPerChannel) :
    Payload.size f ≤
      headerSize + f.channelCount.toNat * s.pointsPerChannel.toNat * bytesPerPoint := by
  rw [Payload.size_of_wellShaped hf, Frame.area]
  exact Nat.add_le_add_left (Nat.mul_le_mul_right _ (Nat.mul_le_mul_left _
    (UInt32.le_iff_toNat_le.mp hle))) _

/-- A frame whose size is a word is not larger than the settings say, even where the size of a full
block is beyond a word. -/
theorem size_le_payloadSize (hf : f.WellShaped) (hle : f.pointsPerChannel ≤ s.pointsPerChannel)
    (hword : Payload.size f < UInt64.size) : Payload.size f ≤ s.payloadSize f.channelCount := by
  refine Nat.le_min.mpr ⟨Nat.le_sub_one_of_lt hword, ?_⟩
  rw [Nat.add_comm]
  exact size_le_full hf hle

theorem size_eq_payloadSize (hf : f.WellShaped) (heq : f.pointsPerChannel = s.pointsPerChannel)
    (hword : Payload.size f < UInt64.size) : Payload.size f = s.payloadSize f.channelCount := by
  rw [Payload.size_of_wellShaped hf, Frame.area, heq] at hword ⊢
  exact (payloadSize_of_lt hword).symm

theorem limits_agree {n : UInt32} (hpoints : 1 ≤ s.pointsPerChannel.toNat) (hn : 1 ≤ n.toNat)
    (hword : 16 + 9 * n.toNat * s.pointsPerChannel.toNat < UInt64.size) :
    s.payloadSize n = s.payloadSizeByStep n ∧
    s.maxChannelsPerMessage = s.maxChannelsByStep ∧
    (s.validateFor n = .ok () ↔ n ≤ s.maxChannelsPerMessage) ∧
    (n ≤ s.maxChannelsPerMessage ↔
      16 + 9 * n.toNat * s.pointsPerChannel.toNat ≤ s.maxMessageSize.toNat) ∧
    ∀ f : Frame, f.WellShaped → f.channelCount = n → f.pointsPerChannel ≤ s.pointsPerChannel →
      Payload.size f ≤ s.payloadSize n ∧
      (f.pointsPerChannel = s.pointsPerChannel → Payload.size f = s.payloadSize n) := by
  have hsum : 16 + 9 * n.toNat * s.pointsPerChannel.toNat =
      headerSize + n.toNat * s.pointsPerChannel.toNat * bytesPerPoint := by
    rw [Nat.mul_assoc, Nat.mul_comm 9]
    rfl
  rw [hsum] at hword ⊢
  have hfull : s.pointsPerChannel ≠ 0 := by
    intro hzero
    rw [hzero] at hpoints
    exact absurd hpoints (by decide)
  have hmax : n ≤ s.maxChannelsPerMessage ↔
      headerSize + n.toNat * s.pointsPerChannel.toNat * bytesPerPoint ≤ s.maxMessageSize.toNat := by
    rw [UInt32.le_iff_toNat_le]
    exact le_maxChannelsPerMessage_iff hfull hn (UInt32.toNat_lt n)
  refine ⟨payloadSize_eq_byStep, maxChannelsPerMessage_eq_byStep, ?_, hmax, ?_⟩
  · rw [validateFor_eq_ok_iff, payloadSize_of_lt hword, hmax]
  · rintro f hf rfl hle
    have hframe : Payload.size f < UInt64.size := Nat.lt_of_le_of_lt (size_le_full hf hle) hword
    exact ⟨size_le_payloadSize hf hle hframe, fun heq => size_eq_payloadSize hf heq hframe⟩

def tight : ServerSettings := { pointsPerChannel := 7, maxMessageSize := 16 + 9 * 33 * 7 }

theorem limits_agree_tight :
    1 ≤ tight.pointsPerChannel.toNat ∧ 1 ≤ (33 : UInt32).toNat ∧
    16 + 9 * (33 : UInt32).toNat * tight.pointsPerChannel.toNat < UInt64.size ∧
    tight.validateFor 33 = .ok () ∧ (33 : UInt32) ≤ tight.maxChannelsPerMessage ∧
    ¬ tight.validateFor 34 = .ok () ∧
    Payload.size ⟨0, 1, 7, List.replicate 7 0, List.replicate 7 true⟩ = tight.payloadSize 1 := by
  have hpoints : 1 ≤ tight.pointsPerChannel.toNat := by decide
  have h33 := limits_agree (s := tight) (n := 33) hpoints (by decide) (by decide)
  have h34 := limits_agree (s := tight) (n := 34) hpoints (by decide) (by decide)
  have h1 := limits_agree (s := tight) (n := 1) hpoints (by decide) (by decide)
  obtain ⟨-, -, hcheck, hroom, -⟩ := h33
  have hle : (33 : UInt32) ≤ tight.maxChannelsPerMessage := hroom.mpr (by decide)
  refine ⟨hpoints, by decide, by decide, hcheck.mpr hle, hle, ?_, ?_⟩
  · intro hok
    exact absurd (h34.2.2.2.1.mp (h34.2.2.1.mp hok)) (by decide)
  · exact (h1.2.2.2.2 _ (by decide) rfl (by decide)).2 rfl

end ServerSettings
end SampleCast
