import SampleCast.Proofs.Frame.Selection

/-! The shape of every frame.
There are six ways to come by a frame, and each sees to the shape in its own manner: the samples are
counted, cut out of a frame or of buffers that have enough, or read from a payload of the right
size. `Built` lists them, and `LaidOut` is what a frame owes to its shape: every channel can be read
within the samples, and the channels together are the samples. Main statements: `Built.wellShaped`,
`LaidOut.of_length`, and `frames_laid_out`, which says besides that a frame is made of whole
channels if and only if all their lists are as long as the first, and that it holds them. -/

namespace SampleCast.Frame

open Payload (add? mul? slice?)

/-- The frames that a program can have. What is cut out of buffers may be written over a frame, of
which nothing stays. -/
inductive Built : Frame → Prop
  | empty : Built {}
  | ofSamples {timestamp : UInt64} {channels points : UInt32} {analog : List Level}
      {digital : List Bool} {f : Frame}
      (h : Frame.ofSamples timestamp channels points analog digital = .ok f) : Built f
  | ofChannels {timestamp : UInt64} {channels : List (List Level × List Bool)} {f : Frame}
      (h : Frame.ofChannels timestamp channels = .ok f) : Built f
  | select {f g : Frame} {ids : List UInt32} (hf : Built f) (hn : ids.length < UInt32.size)
      (h : f.select ids = some g) : Built g
  | ofBuffers {timestamp : UInt64} {channels points : UInt32} {analog : List Level}
      {digital : List Bool} (ha : channels.toNat * points.toNat ≤ analog.length)
      (hd : channels.toNat * points.toNat ≤ digital.length) :
      Built (Frame.ofBuffers timestamp channels points analog digital)
  | decode {bytes : List UInt8} {f : Frame} (h : Payload.decode bytes = .ok f) : Built f

def channel? {α : Type} (f : Frame) (samples : List α) (c : UInt32) : Option (Option (List α)) :=
  if f.channelCount ≤ c then some none
  else do
    let start ← mul? c.toNat f.pointsPerChannel.toNat
    let stop ← add? start f.pointsPerChannel.toNat
    let window ← slice? samples start stop
    some (some window)

/-- The samples fill the shape of the frame, and `read` reads them channel by channel. -/
structure LaidOut {α : Type} (f : Frame) (samples : List α) (read : UInt32 → Option (List α)) :
    Prop where
  filled : samples.length = f.channelCount.toNat * f.pointsPerChannel.toNat
  inside : ∀ c, f.channel? samples c = some (read c)
  present : ∀ c, (read c).isSome ↔ c < f.channelCount
  points : ∀ c window, read c = some window → window.length = f.pointsPerChannel.toNat
  whole : f.channels.flatMap (fun c => (read c).getD []) = samples

variable {α : Type} {f : Frame} {samples : List α} {c : UInt32}

theorem channel?_eq (hs : samples.length = f.area) (c : UInt32) :
    f.channel? samples c =
      some (if c < f.channelCount then some (f.window samples c) else none) := by
  by_cases hc : c < f.channelCount
  · rw [channel?, if_neg (UInt32.not_le.mpr hc), if_pos hc]
    simp only [mul?_start hc, add?_stop hc, slice?_window hs hc, Option.bind_eq_bind,
      Option.bind_some]
  · rw [channel?, if_pos (UInt32.not_lt.mp hc), if_neg hc]

theorem LaidOut.of_length (hs : samples.length = f.area) :
    f.LaidOut samples fun c =>
      if c < f.channelCount then some (f.window samples c) else none := by
  constructor
  case filled => exact hs
  case inside => exact channel?_eq hs
  case present =>
    intro c
    split_ifs with hc <;> simp [hc]
  case points =>
    intro c window hw
    split_ifs at hw with hc
    cases hw
    exact length_window hs hc
  case whole =>
    refine Eq.trans (List.flatMap_congr fun c hc => ?_) (flatMap_channels hs)
    rw [if_pos (lt_of_mem_channels hc), Option.getD_some]

def commonLength (channels : List (List Level × List Bool)) : Nat :=
  (channels.head?.map (·.1.length)).getD 0

def IsEven (channels : List (List Level × List Bool)) : Prop :=
  ∀ p ∈ channels, p.1.length = commonLength channels ∧ p.2.length = commonLength channels

theorem findRagged_eq_none_iff {points index : Nat} {channels : List (List Level × List Bool)} :
    findRagged points index channels = none ↔
      ∀ p ∈ channels, p.1.length = points ∧ p.2.length = points := by
  induction channels generalizing index with
  | nil => simp [findRagged]
  | cons p channels ih =>
    rw [findRagged, List.forall_mem_cons]
    split_ifs with ha hd
    · exact iff_of_false nofun fun h => ha h.1.1
    · exact iff_of_false nofun fun h => hd h.1.2
    · rw [ih]
      exact (and_iff_right ⟨not_not.mp ha, not_not.mp hd⟩).symm

section ofChannels

variable {timestamp : UInt64} {channels : List (List Level × List Bool)} {k : Nat}

theorem ofChannels_of_isEven (h : IsEven channels) :
    ofChannels timestamp channels =
      ofSamples timestamp (UInt32.ofNat channels.length) (UInt32.ofNat (commonLength channels))
        (channels.flatMap (·.1)) (channels.flatMap (·.2)) := by
  have hr : findRagged (commonLength channels) 0 channels = none := findRagged_eq_none_iff.mpr h
  rw [commonLength] at hr
  simp only [ofChannels, hr]
  rfl

theorem isEven_of_ofChannels (h : ofChannels timestamp channels = .ok f) : IsEven channels := by
  refine findRagged_eq_none_iff.mp (?_ : findRagged _ 0 _ = none)
  cases hr : findRagged (commonLength channels) 0 channels with
  | none => rfl
  | some e =>
    rw [commonLength] at hr
    simp only [ofChannels, hr] at h
    cases h

theorem ofChannels_eq_ok_iff (hn : channels.length < UInt32.size)
    (hp : commonLength channels < UInt32.size) :
    ofChannels timestamp channels = .ok f ↔ IsEven channels ∧
      f = ⟨timestamp, UInt32.ofNat channels.length, UInt32.ofNat (commonLength channels),
        channels.flatMap (·.1), channels.flatMap (·.2)⟩ := by
  have harea : (UInt32.ofNat channels.length).toNat *
      (UInt32.ofNat (commonLength channels)).toNat = channels.length * commonLength channels := by
    rw [UInt32.toNat_ofNat_of_lt' hn, UInt32.toNat_ofNat_of_lt' hp]
  constructor
  · intro h
    have heven := isEven_of_ofChannels h
    rw [ofChannels_of_isEven heven] at h
    exact ⟨heven, (ofSamples_eq_ok_iff.mp h).1⟩
  · rintro ⟨heven, rfl⟩
    have hanalog := length_flatMap_of_forall fun p h => (heven p h).1
    have hdigital := length_flatMap_of_forall fun p h => (heven p h).2
    rw [ofChannels_of_isEven heven, ofSamples_eq_ok_iff]
    exact ⟨rfl, hanalog.trans harea.symm, hdigital.trans harea.symm⟩

theorem channel_ofChannels (hn : channels.length < UInt32.size)
    (hp : commonLength channels < UInt32.size) (h : ofChannels timestamp channels = .ok f)
    (hk : k < channels.length) :
    f.analogOf (UInt32.ofNat k) = some channels[k].1 ∧
      f.digitalOf (UInt32.ofNat k) = some channels[k].2 := by
  obtain ⟨heven, rfl⟩ := (ofChannels_eq_ok_iff hn hp).mp h
  have hlt : UInt32.ofNat k < UInt32.ofNat channels.length := by
    rw [UInt32.lt_iff_toNat_lt, UInt32.toNat_ofNat_of_lt' hn,
      UInt32.toNat_ofNat_of_lt' (Nat.lt_trans hk hn)]
    exact hk
  have hplace : (UInt32.ofNat k).toNat * (UInt32.ofNat (commonLength channels)).toNat =
      k * commonLength channels := by
    rw [UInt32.toNat_ofNat_of_lt' (Nat.lt_trans hk hn), UInt32.toNat_ofNat_of_lt' hp]
  rw [analogOf, digitalOf, if_pos hlt, if_pos hlt, window, window, hplace,
    UInt32.toNat_ofNat_of_lt' hp]
  exact ⟨congrArg some (drop_take_flatMap (fun p h => (heven p h).1) hk),
    congrArg some (drop_take_flatMap (fun p h => (heven p h).2) hk)⟩

end ofChannels

theorem Built.wellShaped (h : Built f) : f.WellShaped := by
  induction h with
  | empty => exact ⟨rfl, rfl⟩
  | ofSamples h => exact (ofSamples_eq_ok_iff.mp h).2
  | ofChannels h =>
    rw [ofChannels_of_isEven (isEven_of_ofChannels h)] at h
    exact (ofSamples_eq_ok_iff.mp h).2
  | select hf hn h ih => exact wellShaped_select ih h hn
  | ofBuffers ha hd => exact wellShaped_ofBuffers ha hd
  | decode h => exact (Payload.decode_eq_ok_iff.mp h).1

theorem frames_laid_out :
    (∀ f : Frame, Built f →
      f.LaidOut f.analog f.analogOf ∧ f.LaidOut f.digital f.digitalOf) ∧
    ∀ timestamp channels, channels.length < UInt32.size → commonLength channels < UInt32.size →
      ((∃ f, ofChannels timestamp channels = .ok f) ↔ IsEven channels) ∧
      ∀ f, ofChannels timestamp channels = .ok f →
        f.timestamp = timestamp ∧ f.channelCount.toNat = channels.length ∧
        f.pointsPerChannel.toNat = commonLength channels ∧
        ∀ k (hk : k < channels.length),
          f.analogOf (UInt32.ofNat k) = some channels[k].1 ∧
            f.digitalOf (UInt32.ofNat k) = some channels[k].2 := by
  refine ⟨fun f h => ⟨.of_length h.wellShaped.1, .of_length h.wellShaped.2⟩, ?_⟩
  intro timestamp channels hn hp
  refine ⟨⟨?_, ?_⟩, fun f h => ?_⟩
  · rintro ⟨f, h⟩
    exact ((ofChannels_eq_ok_iff hn hp).mp h).1
  · intro heven
    exact ⟨_, (ofChannels_eq_ok_iff hn hp).mpr ⟨heven, rfl⟩⟩
  · obtain ⟨-, hf⟩ := (ofChannels_eq_ok_iff hn hp).mp h
    refine ⟨by rw [hf], ?_, ?_, fun k hk => channel_ofChannels hn hp h hk⟩
    · rw [hf, UInt32.toNat_ofNat_of_lt' hn]
    · rw [hf, UInt32.toNat_ofNat_of_lt' hp]

def pairs : List (List Level × List Bool) := [([1, 2], [true, false]), ([3, 4], [false, true])]

theorem frames_laid_out_pairs :
    pairs.length < UInt32.size ∧ commonLength pairs < UInt32.size ∧
    ∃ f g h, ofChannels 42 pairs = .ok f ∧ f.select [1, 0, 1] = some g ∧ g.select [2, 1] = some h ∧
      f.analogOf (UInt32.ofNat 1) = some [3, 4] ∧ Built h ∧
      h.LaidOut h.analog h.analogOf ∧ h.LaidOut h.digital h.digitalOf := by
  have hn : pairs.length < UInt32.size := by decide
  have hp : commonLength pairs < UInt32.size := by decide
  obtain ⟨hlaid, hchannels⟩ := frames_laid_out
  obtain ⟨-, hread⟩ := hchannels 42 pairs hn hp
  have hf : ofChannels 42 pairs = .ok ⟨42, 2, 2, [1, 2, 3, 4], [true, false, false, true]⟩ := rfl
  have hg : select ⟨42, 2, 2, [1, 2, 3, 4], [true, false, false, true]⟩ [1, 0, 1] =
      some ⟨42, 3, 2, [3, 4, 1, 2, 3, 4], [false, true, true, false, false, true]⟩ := rfl
  have hh : select ⟨42, 3, 2, [3, 4, 1, 2, 3, 4], [false, true, true, false, false, true]⟩ [2, 1] =
      some ⟨42, 2, 2, [3, 4, 1, 2], [false, true, true, false]⟩ := rfl
  obtain ⟨-, -, -, hchannel⟩ := hread _ hf
  have hbuilt : Built ⟨42, 2, 2, [3, 4, 1, 2], [false, true, true, false]⟩ :=
    .select (.select (.ofChannels hf) (by decide) hg) (by decide) hh
  exact ⟨hn, hp, _, _, _, hf, hg, hh, (hchannel 1 (by decide)).1, hbuilt, hlaid _ hbuilt⟩

end SampleCast.Frame
