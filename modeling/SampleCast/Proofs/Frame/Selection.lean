import Mathlib.Data.List.Basic
import Mathlib.Data.List.GetD
import SampleCast.Proofs.Frame
import SampleCast.Proofs.Wire.InPlace

/-! Selections of selections.
A selection is a frame again, whose channels are the requested ones in the order of the request.
Main statements: `select?_eq`, that no sample is looked for outside of its array, and that nothing
but the memory for the samples can be missing, `analogOf_select` and `digitalOf_select`, and
`select_composes`. -/

namespace SampleCast.Frame

open Payload (add? mul? slice? add?_of_lt mul?_of_lt slice?_of_le)

def gather? (f : Frame) : List UInt32 → List Level → List Bool →
    Option (Option (List Level × List Bool))
  | [], analog, digital => some (some (analog, digital))
  | c :: more, analog, digital =>
    if f.channelCount ≤ c then some none
    else do
      let start ← mul? c.toNat f.pointsPerChannel.toNat
      let stop ← add? start f.pointsPerChannel.toNat
      let levels ← slice? f.analog start stop
      let bits ← slice? f.digital start stop
      f.gather? more (analog ++ levels) (digital ++ bits)

/-- Memory for the samples is asked for before a channel is looked at. The digital ones need an
eighth of what the analog ones need. -/
def reserve? (f : Frame) (channels : List UInt32) : Option Unit := do
  let samples ← mul? f.pointsPerChannel.toNat channels.length
  if samples * 8 < Payload.memory then some () else none

/-- The selection, if there is memory for it and no position is beyond a word or outside of its
array on the way to it. -/
def select? (f : Frame) (channels : List UInt32) : Option (Option Frame) := do
  f.reserve? channels
  let samples ← f.gather? channels [] []
  some (samples.map fun (analog, digital) =>
    ⟨f.timestamp, UInt32.ofNat channels.length, f.pointsPerChannel, analog, digital⟩)

def channels (f : Frame) : List UInt32 := (List.range f.channelCount.toNat).map UInt32.ofNat

variable {f g : Frame} {a b ids : List UInt32} {c : UInt32} {i : Nat}

theorem end_of_window (hc : c < f.channelCount) :
    c.toNat * f.pointsPerChannel.toNat + f.pointsPerChannel.toNat ≤ f.area := by
  rw [← Nat.succ_mul]
  exact Nat.mul_le_mul_right _ (UInt32.lt_iff_toNat_lt.mp hc)

theorem area_lt_word (f : Frame) : f.area < UInt64.size :=
  Nat.mul_lt_mul'' f.channelCount.toNat_lt f.pointsPerChannel.toNat_lt

theorem mul?_start (hc : c < f.channelCount) :
    mul? c.toNat f.pointsPerChannel.toNat = some (c.toNat * f.pointsPerChannel.toNat) := by
  have hend := end_of_window hc
  have hword := f.area_lt_word
  exact mul?_of_lt (by omega)

theorem add?_stop (hc : c < f.channelCount) :
    add? (c.toNat * f.pointsPerChannel.toNat) f.pointsPerChannel.toNat =
      some (c.toNat * f.pointsPerChannel.toNat + f.pointsPerChannel.toNat) :=
  add?_of_lt (Nat.lt_of_le_of_lt (end_of_window hc) f.area_lt_word)

theorem slice?_window {α : Type} {samples : List α} (hs : samples.length = f.area)
    (hc : c < f.channelCount) :
    slice? samples (c.toNat * f.pointsPerChannel.toNat)
        (c.toNat * f.pointsPerChannel.toNat + f.pointsPerChannel.toNat) =
      some (f.window samples c) := by
  have hend := end_of_window hc
  rw [slice?_of_le (by omega) (by omega), Nat.add_sub_cancel_left, window]

theorem gather?_eq (hf : f.WellShaped) (ids : List UInt32) (analog : List Level)
    (digital : List Bool) :
    f.gather? ids analog digital =
      some (if ids.all (· < f.channelCount) then
        some (analog ++ ids.flatMap (f.window f.analog),
          digital ++ ids.flatMap (f.window f.digital))
      else none) := by
  induction ids generalizing analog digital with
  | nil => simp [gather?]
  | cons c ids ih =>
    by_cases hc : c < f.channelCount
    · have hlevels := slice?_window hf.1 hc
      have hbits := slice?_window hf.2 hc
      rw [gather?, if_neg (UInt32.not_le.mpr hc)]
      simp only [mul?_start hc, add?_stop hc, hlevels, hbits, Option.bind_eq_bind,
        Option.bind_some]
      rw [ih]
      simp only [List.all_cons, hc, decide_true, Bool.true_and, List.flatMap_cons,
        List.append_assoc]
    · rw [gather?, if_pos (UInt32.not_lt.mp hc)]
      simp [hc]

theorem reserve?_eq (f : Frame) (ids : List UInt32) :
    f.reserve? ids =
      if f.pointsPerChannel.toNat * ids.length * 8 < Payload.memory then some () else none := by
  unfold reserve? mul?
  by_cases hword : f.pointsPerChannel.toNat * ids.length < UInt64.size
  · rw [if_pos hword]
    rfl
  · have hlarge : ¬ f.pointsPerChannel.toNat * ids.length * 8 < Payload.memory := by
      rw [Payload.memory]
      rw [UInt64.size] at hword
      omega
    rw [if_neg hword, if_neg hlarge]
    rfl

theorem select?_eq (hf : f.WellShaped) (ids : List UInt32) :
    f.select? ids =
      if f.pointsPerChannel.toNat * ids.length * 8 < Payload.memory then some (f.select ids)
      else none := by
  rw [select?, reserve?_eq, gather?_eq hf, select]
  by_cases hfits : f.pointsPerChannel.toNat * ids.length * 8 < Payload.memory
  · rw [if_pos hfits, if_pos hfits]
    split_ifs <;> rfl
  · rw [if_neg hfits, if_neg hfits]
    rfl

theorem drop_take_flatMap {α β : Type} {w : β → List α} {n : Nat} {xs : List β}
    (hw : ∀ x ∈ xs, (w x).length = n) (hi : i < xs.length) :
    ((xs.flatMap w).drop (i * n)).take n = w xs[i] := by
  induction xs generalizing i with
  | nil => exact absurd hi (Nat.not_lt_zero i)
  | cons x xs ih =>
    have hx := hw x (List.mem_cons_self ..)
    cases i with
    | zero => rw [Nat.zero_mul, List.drop_zero, List.flatMap_cons, List.take_left' hx]; rfl
    | succ i =>
      rw [List.flatMap_cons, Nat.succ_mul, Nat.add_comm, ← List.drop_drop, List.drop_left' hx]
      exact ih (fun y hy => hw y (List.mem_cons_of_mem _ hy)) (Nat.lt_of_succ_lt_succ hi)

theorem flatMap_range_take {α : Type} (xs : List α) (n k : Nat) :
    (List.range k).flatMap (fun i => (xs.drop (i * n)).take n) = xs.take (k * n) := by
  induction k with
  | zero => simp
  | succ k ih =>
    rw [List.range_succ, List.flatMap_append, ih, List.flatMap_singleton, Nat.succ_mul,
      List.take_add]

theorem ofNat_lt_of_select (h : f.select a = some g) (hn : a.length < UInt32.size)
    (hi : i < a.length) : UInt32.ofNat i < g.channelCount := by
  rw [UInt32.lt_iff_toNat_lt, channelCount_select h hn,
    UInt32.toNat_ofNat_of_lt' (Nat.lt_trans hi hn)]
  exact hi

theorem window_select {α : Type} {samples : List α} (hs : samples.length = f.area)
    (h : f.select a = some g) (hn : a.length < UInt32.size) (hi : i < a.length) :
    g.window (a.flatMap (f.window samples)) (UInt32.ofNat i) = f.window samples a[i] := by
  obtain ⟨hall, rfl⟩ := select_eq_some h
  rw [window, UInt32.toNat_ofNat_of_lt' (Nat.lt_trans hi hn)]
  exact drop_take_flatMap (fun c hc => length_window hs (hall c hc)) hi

theorem analogOf_select (hf : f.WellShaped) (h : f.select a = some g)
    (hn : a.length < UInt32.size) (hi : i < a.length) :
    g.analogOf (UInt32.ofNat i) = some (f.window f.analog a[i]) ∧
      f.analogOf a[i] = some (f.window f.analog a[i]) := by
  obtain ⟨hall, hg⟩ := select_eq_some h
  have hwindow := window_select hf.1 h hn hi
  rw [analogOf, if_pos (ofNat_lt_of_select h hn hi), analogOf,
    if_pos (hall _ (List.getElem_mem hi)), ← hwindow]
  exact ⟨by rw [hg], rfl⟩

theorem digitalOf_select (hf : f.WellShaped) (h : f.select a = some g)
    (hn : a.length < UInt32.size) (hi : i < a.length) :
    g.digitalOf (UInt32.ofNat i) = some (f.window f.digital a[i]) ∧
      f.digitalOf a[i] = some (f.window f.digital a[i]) := by
  obtain ⟨hall, hg⟩ := select_eq_some h
  have hwindow := window_select hf.2 h hn hi
  rw [digitalOf, if_pos (ofNat_lt_of_select h hn hi), digitalOf,
    if_pos (hall _ (List.getElem_mem hi)), ← hwindow]
  exact ⟨by rw [hg], rfl⟩

/-- The channels that the entries of `b` stand for, as places in `a`. -/
def pick (a b : List UInt32) : List UInt32 := b.map fun i => a.getD i.toNat 0

theorem flatMap_pick {α : Type} {samples : List α} (hs : samples.length = f.area)
    (h : f.select a = some g) (hn : a.length < UInt32.size) (hb : ∀ i ∈ b, i.toNat < a.length) :
    b.flatMap (g.window (a.flatMap (f.window samples))) =
      (pick a b).flatMap (f.window samples) := by
  rw [pick, List.flatMap_map]
  refine List.flatMap_congr fun i hi => ?_
  have hwindow := window_select hs h hn (hb i hi)
  rwa [UInt32.ofNat_toNat, ← List.getD_eq_getElem a 0 (hb i hi)] at hwindow

theorem select_select (hf : f.WellShaped) (h : f.select a = some g)
    (hn : a.length < UInt32.size) :
    g.select b = if b.all (·.toNat < a.length) then f.select (pick a b) else none := by
  have hcount := channelCount_select h hn
  obtain ⟨hall, hg⟩ := select_eq_some h
  by_cases hinside : b.all (·.toNat < a.length)
  · have hb : ∀ i ∈ b, i.toNat < a.length := fun i hi =>
      of_decide_eq_true (List.all_eq_true.mp hinside i hi)
    have hinner : b.all (· < g.channelCount) = true := by
      refine List.all_eq_true.mpr fun i hi => decide_eq_true ?_
      rw [UInt32.lt_iff_toNat_lt, hcount]
      exact hb i hi
    have houter : (pick a b).all (· < f.channelCount) = true := by
      refine List.all_eq_true.mpr fun c hc => decide_eq_true ?_
      obtain ⟨i, hi, rfl⟩ := List.mem_map.mp hc
      rw [List.getD_eq_getElem a 0 (hb i hi)]
      exact hall _ (List.getElem_mem _)
    have hanalog := flatMap_pick hf.1 h hn hb
    have hdigital := flatMap_pick hf.2 h hn hb
    have hlen : (pick a b).length = b.length := List.length_map ..
    rw [if_pos hinside, select, select, if_pos hinner, if_pos houter, ← hanalog, ← hdigital, hlen,
      hg]
  · rw [if_neg hinside, select_eq_none_iff]
    obtain ⟨i, hi, hlong⟩ : ∃ i ∈ b, a.length ≤ i.toNat := by
      simpa using hinside
    exact ⟨i, hi, UInt32.le_iff_toNat_le.mpr (hcount ▸ hlong)⟩

theorem flatMap_channels {α : Type} {samples : List α} (hs : samples.length = f.area) :
    f.channels.flatMap (f.window samples) = samples := by
  rw [channels, List.flatMap_map]
  refine Eq.trans (List.flatMap_congr fun i hi => ?_)
    ((flatMap_range_take samples f.pointsPerChannel.toNat f.channelCount.toNat).trans
      (List.take_of_length_le (Nat.le_of_eq hs)))
  have hlt : i < UInt32.size := Nat.lt_trans (List.mem_range.mp hi) f.channelCount.toNat_lt
  rw [window, UInt32.toNat_ofNat_of_lt' hlt]

theorem lt_of_mem_channels (hc : c ∈ f.channels) : c < f.channelCount := by
  obtain ⟨i, hi, rfl⟩ := List.mem_map.mp hc
  have hlt := List.mem_range.mp hi
  rw [UInt32.lt_iff_toNat_lt,
    UInt32.toNat_ofNat_of_lt' (Nat.lt_trans hlt f.channelCount.toNat_lt)]
  exact hlt

theorem select_channels (hf : f.WellShaped) : f.select f.channels = some f := by
  have hall : f.channels.all (· < f.channelCount) = true :=
    List.all_eq_true.mpr fun c hc => decide_eq_true (lt_of_mem_channels hc)
  have hlen : UInt32.ofNat f.channels.length = f.channelCount := by
    rw [channels, List.length_map, List.length_range, UInt32.ofNat_toNat]
  rw [select, if_pos hall, hlen, flatMap_channels hf.1, flatMap_channels hf.2]

/-- A selection for which there is memory is made without a look outside of the samples, and has the
requested channels in their order. A selection from it is one from the frame that it was made of, if
there is such a channel for each of its entries, and the selection of all channels is the frame
itself. -/
theorem select_composes (hf : f.WellShaped) (hn : a.length < UInt32.size) :
    (f.select? a = if f.pointsPerChannel.toNat * a.length * 8 < Payload.memory
      then some (f.select a) else none) ∧
    (f.select a = none ↔ ∃ c ∈ a, f.channelCount ≤ c) ∧
    (∀ g, f.select a = some g →
      g.WellShaped ∧ g.timestamp = f.timestamp ∧ g.pointsPerChannel = f.pointsPerChannel ∧
      g.channelCount.toNat = a.length ∧
      (∀ i (hi : i < a.length), ∃ analog digital,
        f.analogOf a[i] = some analog ∧ g.analogOf (UInt32.ofNat i) = some analog ∧
        f.digitalOf a[i] = some digital ∧ g.digitalOf (UInt32.ofNat i) = some digital) ∧
      ∀ b, (g.select? b = if f.pointsPerChannel.toNat * b.length * 8 < Payload.memory
          then some (g.select b) else none) ∧
        g.select b = if b.all (·.toNat < a.length) then f.select (pick a b) else none) ∧
    f.select f.channels = some f := by
  refine ⟨select?_eq hf a, select_eq_none_iff, fun g h => ?_, select_channels hf⟩
  have hg := wellShaped_select hf h hn
  have hkept := (select_eq_some h).2
  refine ⟨hg, by rw [hkept], by rw [hkept], channelCount_select h hn, fun i hi => ?_, fun b => ?_⟩
  · obtain ⟨hanalog, hanalog'⟩ := analogOf_select hf h hn hi
    obtain ⟨hdigital, hdigital'⟩ := digitalOf_select hf h hn hi
    exact ⟨_, _, hanalog', hanalog, hdigital', hdigital⟩
  · refine ⟨?_, select_select hf h hn⟩
    rw [select?_eq hg, hkept]

def triple : Frame := ⟨42, 3, 2, [1, 2, 3, 4, 5, 6], [true, false, false, false, false, true]⟩

theorem select_composes_again :
    triple.WellShaped ∧ [2, 0, 2].length < UInt32.size ∧
    ∃ g, triple.select [2, 0, 2] = some g ∧ triple.select? [2, 0, 2] = some (some g) ∧
      g.analogOf 2 = some [5, 6] ∧
      g.select [1, 0] = triple.select [0, 2] ∧ g.select [1, 3] = none ∧
      triple.select [0, 1, 2] = some triple := by
  have hshape : triple.WellShaped := by decide
  have hlen : [2, 0, 2].length < UInt32.size := by decide
  obtain ⟨hplace, -, hall, hself⟩ := select_composes (a := [2, 0, 2]) hshape hlen
  obtain ⟨g, hg⟩ : ∃ g, triple.select [2, 0, 2] = some g := ⟨_, rfl⟩
  obtain ⟨-, -, -, -, hchannel, hagain⟩ := hall g hg
  obtain ⟨analog, digital, hfrom, hto, -, -⟩ := hchannel 2 (by decide)
  refine ⟨hshape, hlen, g, hg, hg ▸ hplace, hto.trans (hfrom.symm.trans rfl), ?_, ?_, hself⟩
  · exact (hagain [1, 0]).2
  · exact (hagain [1, 3]).2

end SampleCast.Frame
