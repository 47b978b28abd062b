import SampleCast.Frame

/-! The shape of frames.
The frames that the producer cuts out of its buffers fill their stated shape, and so does every
selection of channels from a frame that does. -/

namespace SampleCast.Frame

variable {f g : Frame} {channels : List UInt32}

theorem wellShaped_ofBuffers {timestamp : UInt64} {count points : UInt32} {analog : List Level}
    {digital : List Bool} (ha : count.toNat * points.toNat ≤ analog.length)
    (hd : count.toNat * points.toNat ≤ digital.length) :
    (ofBuffers timestamp count points analog digital).WellShaped := by
  constructor
  · change (analog.take _).length = _
    rw [List.length_take, Nat.min_eq_left ha]
    rfl
  · change (digital.take _).length = _
    rw [List.length_take, Nat.min_eq_left hd]
    rfl

theorem length_window {α : Type} {samples : List α} {c : UInt32} (hs : samples.length = f.area)
    (hc : c < f.channelCount) : (f.window samples c).length = f.pointsPerChannel.toNat := by
  have hend : (c.toNat + 1) * f.pointsPerChannel.toNat ≤ f.area :=
    Nat.mul_le_mul_right _ (UInt32.lt_iff_toNat_lt.mp hc)
  rw [Nat.succ_mul] at hend
  rw [window, List.length_take, List.length_drop]
  omega

theorem length_flatMap_of_forall {α β : Type} {w : β → List α} {n : Nat} {xs : List β}
    (hw : ∀ x ∈ xs, (w x).length = n) : (xs.flatMap w).length = xs.length * n := by
  rw [List.length_flatMap, List.map_congr_left hw, List.map_const', List.sum_replicate_nat]

theorem length_flatMap_window {α : Type} {samples : List α} (hs : samples.length = f.area)
    (hc : ∀ c ∈ channels, c < f.channelCount) :
    (channels.flatMap (f.window samples)).length =
      channels.length * f.pointsPerChannel.toNat :=
  length_flatMap_of_forall fun c h => length_window hs (hc c h)

theorem select_eq_some (h : f.select channels = some g) :
    (∀ c ∈ channels, c < f.channelCount) ∧
      g = { f with
        channelCount := UInt32.ofNat channels.length
        analog := channels.flatMap (f.window f.analog)
        digital := channels.flatMap (f.window f.digital) } := by
  unfold select at h
  split at h
  · next hall => exact ⟨by simpa using hall, (Option.some.inj h).symm⟩
  · cases h

theorem channelCount_select (h : f.select channels = some g) (hn : channels.length < UInt32.size) :
    g.channelCount.toNat = channels.length := by
  obtain ⟨-, rfl⟩ := select_eq_some h
  exact UInt32.toNat_ofNat_of_lt' hn

theorem wellShaped_select (hf : f.WellShaped) (h : f.select channels = some g)
    (hn : channels.length < UInt32.size) : g.WellShaped := by
  have hcount := channelCount_select h hn
  obtain ⟨hall, rfl⟩ := select_eq_some h
  constructor
  · rw [area, hcount]
    exact length_flatMap_window hf.1 hall
  · rw [area, hcount]
    exact length_flatMap_window hf.2 hall

end SampleCast.Frame
