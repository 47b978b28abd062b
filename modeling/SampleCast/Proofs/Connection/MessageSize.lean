import SampleCast.Proofs.Connection.Ledger
import SampleCast.Proofs.Frame
import SampleCast.Proofs.Settings.Size
import SampleCast.Proofs.Wire.Messages

/-! The size of what a connection sends.
The settings limit the size of a payload, the server limits the channels of a request by it, and the
message states the size in four bytes. Main statement: `selection_fits`, that a selection of
accepted channels never exceeds the limit, and that the message states its size and is read back
exactly if four bytes can hold it. The limit itself is a wider word, and neither check of the
settings compares it with four bytes: `selection_overflows`. -/

namespace SampleCast

open Payload (headerSize bytesPerPoint)

namespace Connection

variable {station : Station} {block s : Frame} {channels : List UInt32} {incoming : List Reading}

/-- What the server agrees to has room in a message, however many points the block has. -/
theorem size_le_of_consider
    (h : consider station (Request.read station.requestLimit incoming).1 = .joining channels)
    (hpoints : block.pointsPerChannel ≠ 0)
    (hmax : block.pointsPerChannel ≤ station.settings.pointsPerChannel) :
    headerSize + channels.length * block.pointsPerChannel.toNat * bytesPerPoint ≤
      station.settings.maxMessageSize.toNat := by
  obtain ⟨hn, hlimit⟩ := length_channels_of_consider rfl h
  have hword : channels.length < UInt32.size := Nat.lt_of_le_of_lt hlimit (UInt32.toNat_lt _)
  have hle : block.pointsPerChannel.toNat ≤ station.settings.pointsPerChannel.toNat :=
    UInt32.le_iff_toNat_le.mp hmax
  have hfull : station.settings.pointsPerChannel ≠ 0 := by
    intro hzero
    rw [hzero] at hle
    exact hpoints (UInt32.toNat_inj.mp (Nat.le_zero.mp hle))
  have hcap : station.requestLimit ≤ station.settings.maxChannelsPerMessage := Std.min_le_right
  have hroom : channels.length ≤ station.settings.maxChannelsPerMessage.toNat :=
    Nat.le_trans hlimit (UInt32.le_iff_toNat_le.mp hcap)
  calc headerSize + channels.length * block.pointsPerChannel.toNat * bytesPerPoint
      ≤ headerSize + channels.length * station.settings.pointsPerChannel.toNat * bytesPerPoint :=
        Nat.add_le_add_left (Nat.mul_le_mul_right _ (Nat.mul_le_mul_left _ hle)) _
    _ ≤ station.settings.maxMessageSize.toNat :=
        (ServerSettings.le_maxChannelsPerMessage_iff hfull hn hword).mp hroom

theorem select_of_consider
    (h : consider station (Request.read station.requestLimit incoming).1 = .joining channels)
    (hblock : block.WellShaped) (hcount : block.channelCount = station.channelCount) :
    ∃ s, block.select channels = some s ∧ s.WellShaped ∧
      Payload.size s =
        headerSize + channels.length * block.pointsPerChannel.toNat * bytesPerPoint := by
  obtain ⟨request, -, -, hchannels⟩ := ok_of_consider h
  obtain ⟨-, hlimit⟩ := length_channels_of_consider rfl h
  have hword : channels.length < UInt32.size := Nat.lt_of_le_of_lt hlimit (UInt32.toNat_lt _)
  cases hs : block.select channels with
  | none =>
    obtain ⟨c, hmem, hc⟩ := Frame.select_eq_none_iff.mp hs
    have hlt := hchannels c hmem
    rw [← hcount] at hlt
    exact absurd hlt (UInt32.not_lt.mpr hc)
  | some s =>
    have hshape := Frame.wellShaped_select hblock hs hword
    have hwide := Frame.channelCount_select hs hword
    obtain ⟨-, rfl⟩ := Frame.select_eq_some hs
    refine ⟨_, rfl, hshape, ?_⟩
    rw [Payload.size_of_wellShaped hshape, Frame.area, hwide]

theorem selection_fits
    (h : consider station (Request.read station.requestLimit incoming).1 = .joining channels)
    (hblock : block.WellShaped) (hcount : block.channelCount = station.channelCount)
    (hpoints : block.pointsPerChannel ≠ 0)
    (hmax : block.pointsPerChannel ≤ station.settings.pointsPerChannel) :
    ∃ s, block.select channels = some s ∧ s.WellShaped ∧
      Payload.size s ≤ station.settings.maxMessageSize.toNat ∧
      (BigEndian.decode (Message.lengthBytes s) = Payload.size s ↔
        Payload.size s < UInt32.size) ∧
      ∀ stream, Reading.Carries stream (Message.encode s) →
        (((Decoder.ofLimit station.settings.maxMessageSize.toNat).read stream).result =
            .ok (some s) ↔ Payload.size s < UInt32.size) := by
  obtain ⟨s, hs, hshape, hsize⟩ := select_of_consider h hblock hcount
  have hlimit : Payload.size s ≤ station.settings.maxMessageSize.toNat := by
    rw [hsize]
    exact size_le_of_consider h hpoints hmax
  refine ⟨s, hs, hshape, hlimit, ?_, ?_⟩
  · rw [Message.decode_lengthBytes]
    exact Nat.mod_eq_iff_lt (by decide)
  · intro stream hc
    rw [← List.append_nil (Message.encode s)] at hc
    exact Decoder.read_eq_iff hshape hlimit hc

def swapStation : Station := ⟨{ pointsPerChannel := 4, maxMessageSize := 100 }, 2, 1⟩

def swapBlock : Frame := ⟨5, 2, 2, [1, 2, 3, 4], [false, true, true, false]⟩

def swapped : Frame := ⟨5, 2, 2, [3, 4, 1, 2], [true, false, false, true]⟩

theorem selection_fits_swapped :
    consider swapStation (Request.read swapStation.requestLimit
      [.chunk (Request.encode ⟨[1, 0]⟩)]).1 = .joining [1, 0] ∧
    swapBlock.WellShaped ∧ swapBlock.channelCount = swapStation.channelCount ∧
    swapBlock.pointsPerChannel ≠ 0 ∧
    swapBlock.pointsPerChannel ≤ swapStation.settings.pointsPerChannel ∧
    swapBlock.select [1, 0] = some swapped ∧
    ((Decoder.ofLimit 100).read (Decoder.drip (Message.encode swapped))).result =
      .ok (some swapped) := by
  have hrequest : consider swapStation (Request.read swapStation.requestLimit
      [.chunk (Request.encode ⟨[1, 0]⟩)]).1 = .joining [1, 0] := by decide
  have hshape : swapBlock.WellShaped := by decide
  have hselect : swapBlock.select [1, 0] = some swapped := by decide
  obtain ⟨s, hs, -, -, -, hread⟩ :=
    selection_fits hrequest hshape rfl (by decide) (by decide)
  obtain rfl : swapped = s := Option.some.inj (hselect.symm.trans hs)
  exact ⟨hrequest, hshape, rfl, by decide, by decide, hselect,
    (hread _ (Decoder.carries_drip _)).mpr (by decide)⟩

def wideStation : Station :=
  ⟨{ pointsPerChannel := 477218587, maxMessageSize := 4294967299 }, 1, 1⟩

def silence (points : UInt32) : Frame :=
  ⟨0, 1, points, List.replicate points.toNat 0, List.replicate points.toNat false⟩

theorem wellShaped_silence (points : UInt32) : (silence points).WellShaped := by
  have harea : (silence points).area = points.toNat := Nat.one_mul _
  constructor
  · rw [harea]
    exact List.length_replicate
  · rw [harea]
    exact List.length_replicate

/-- Both checks pass, the request is accepted, and the client gets no frame. -/
theorem selection_overflows :
    wideStation.settings.validate = .ok () ∧
    wideStation.settings.validateFor wideStation.channelCount = .ok () ∧
    consider wideStation (Request.read wideStation.requestLimit
      [.chunk (Request.encode ⟨[0]⟩)]).1 = .joining [0] ∧
    ∃ block s : Frame, block.WellShaped ∧ block.channelCount = wideStation.channelCount ∧
      block.pointsPerChannel = wideStation.settings.pointsPerChannel ∧
      block.select [0] = some s ∧ Payload.size s = 4294967299 ∧
      BigEndian.decode (Message.lengthBytes s) = 3 ∧
      ∀ stream, Reading.Carries stream (Message.encode s) →
        ((Decoder.ofLimit wideStation.settings.maxMessageSize.toNat).read stream).result =
          .error (.malformed (.shorterThanHeader 3)) := by
  have hrequest : consider wideStation (Request.read wideStation.requestLimit
      [.chunk (Request.encode ⟨[0]⟩)]).1 = .joining [0] := by decide
  obtain ⟨s, hs, hshape, hsize⟩ := select_of_consider hrequest (wellShaped_silence 477218587) rfl
  have hlarge : Payload.size s = 4294967299 := hsize
  have hmod : Payload.size s % UInt32.size = 3 := by
    rw [hlarge]
    rfl
  have hlimit : Payload.size s % UInt32.size ≤
      (Decoder.ofLimit wideStation.settings.maxMessageSize.toNat).limit := by
    rw [hmod]
    decide
  have hword : UInt32.size ≤ Payload.size s := by
    rw [hlarge]
    decide
  refine ⟨rfl, rfl, hrequest, silence 477218587, s, wellShaped_silence _, rfl, rfl, hs, hlarge, ?_,
    ?_⟩
  · rw [Message.decode_lengthBytes, hmod]
  · intro stream hc
    rw [← List.append_nil (Message.encode s)] at hc
    rw [Decoder.read_oversized hshape hlimit hword hc, hmod]
    rfl

end Connection
end SampleCast
