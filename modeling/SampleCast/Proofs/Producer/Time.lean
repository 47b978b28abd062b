import Mathlib.Algebra.Order.Field.Rat
import Mathlib.Algebra.Order.Group.Abs
import Mathlib.Data.Nat.Cast.Order.Field
import Mathlib.Tactic.Linarith
import SampleCast.Proofs.Producer.Tape
import SampleCast.Proofs.Wire.InPlace

/-! The time of a point.
The producer stamps a block with the time of its first point, which it computes from the number of
points before it. The exact time is a fraction of nanoseconds, and what is dropped of it is dropped
anew for every block, so that no two stamps are ever a nanosecond off. `stampEach?` computes the
stamps in words and answers `none` where a sum is beyond 64 bits or a product beyond 128.
`KeepsTime` is what is asked of the stamps of blocks. Main statements: `keepsTime_stamps`, that
`stamps` does it, and `Tape.stamps_frames`, that the blocks of a tape are stamped so. -/

namespace SampleCast

open Payload (add? add?_of_lt)

def nanosAt (rate : UInt32) (points : Nat) : Nat := points * 1000000000 / max rate.toNat 1

def exactNanos (rate : UInt32) (points : ℚ) : ℚ := points * 1000000000 / max rate.toNat 1

def pointsBefore (lengths : List UInt32) (k : Nat) : Nat := ((lengths.take k).map (·.toNat)).sum

def stamps (rate : UInt32) : Nat → List UInt32 → List UInt64
  | _, [] => []
  | points, length :: more => timestampAt rate points :: stamps rate (points + length.toNat) more

def wideMul? (a b : Nat) : Option Nat := if a * b < 2 ^ 128 then some (a * b) else none

def timestampAt? (rate : UInt32) (points : UInt64) : Option UInt64 := do
  let nanos := (← wideMul? points.toNat 1000000000) / max rate.toNat 1
  some (if nanos < UInt64.size then UInt64.ofNat nanos else UInt64.ofNat (UInt64.size - 1))

def stampEach? (rate : UInt32) : UInt64 → List UInt32 → Option (List UInt64)
  | _, [] => some []
  | points, length :: more => do
    let stamp ← timestampAt? rate points
    let after ← add? points.toNat length.toNat
    (stampEach? rate (UInt64.ofNat after) more).map (stamp :: ·)

/-- The stamps of blocks of these lengths are right, and they come out so in words. None is before
the one that it follows. However many blocks lie between two of them, they are not a nanosecond off
unless time has stopped, and with at most one point in a nanosecond no two are the same. -/
structure KeepsTime (rate : UInt32) (lengths : List UInt32) (times : List UInt64) : Prop where
  length : times.length = lengths.length
  exact : ∀ k t, times[k]? = some t →
    t.toNat = min (UInt64.size - 1) (nanosAt rate (pointsBefore lengths k))
  words : (lengths.map (·.toNat)).sum < UInt64.size → stampEach? rate 0 lengths = some times
  sorted : times.Pairwise (· ≤ ·)
  driftless : ∀ j k t u, times[j]? = some t → times[k]? = some u →
    nanosAt rate (pointsBefore lengths j) < UInt64.size →
    nanosAt rate (pointsBefore lengths k) < UInt64.size →
    |(u.toNat : ℚ) - t.toNat
      - exactNanos rate ((pointsBefore lengths k : ℚ) - pointsBefore lengths j)| < 1
  increasing : 1 ≤ rate → rate.toNat ≤ 1000000000 → ∀ j k t u, j < k →
    times[j]? = some t → times[k]? = some u →
    nanosAt rate (pointsBefore lengths k) < UInt64.size → t < u

variable {rate : UInt32} {a b points k : Nat} {lengths : List UInt32}

theorem toNat_timestampAt :
    (timestampAt rate points).toNat = min (UInt64.size - 1) (nanosAt rate points) := by
  have hword : min (UInt64.size - 1) (points * 1000000000 / max rate.toNat 1) < UInt64.size :=
    Nat.lt_of_le_of_lt (Nat.min_le_left ..) (by decide)
  rw [timestampAt, UInt64.toNat_ofNat_of_lt' hword, nanosAt]

theorem toNat_timestampAt_of_lt (h : nanosAt rate points < UInt64.size) :
    (timestampAt rate points).toNat = nanosAt rate points := by
  rw [toNat_timestampAt, Nat.min_eq_right]
  exact Nat.le_sub_one_of_lt h

theorem nanosAt_mono (h : a ≤ b) : nanosAt rate a ≤ nanosAt rate b :=
  Nat.div_le_div_right (Nat.mul_le_mul_right _ h)

theorem timestampAt_mono (h : a ≤ b) : timestampAt rate a ≤ timestampAt rate b := by
  rw [UInt64.le_iff_toNat_le, toNat_timestampAt, toNat_timestampAt]
  exact Nat.le_min.mpr ⟨Nat.min_le_left .., (Nat.min_le_right ..).trans (nanosAt_mono h)⟩

theorem timestampAt_strictMono (hpos : 1 ≤ rate) (hrate : rate.toNat ≤ 1000000000) (h : a < b)
    (hb : nanosAt rate b < UInt64.size) : timestampAt rate a < timestampAt rate b := by
  have hone : max rate.toNat 1 = rate.toNat := Nat.max_eq_left (UInt32.le_iff_toNat_le.mp hpos)
  have hdiv : 0 < rate.toNat := UInt32.le_iff_toNat_le.mp hpos
  have hnanos : nanosAt rate a + 1 ≤ nanosAt rate b := by
    rw [nanosAt, nanosAt, hone, ← Nat.add_div_right _ hdiv]
    refine Nat.div_le_div_right ?_
    calc a * 1000000000 + rate.toNat ≤ a * 1000000000 + 1000000000 := Nat.add_le_add_left hrate _
      _ = (a + 1) * 1000000000 := (Nat.succ_mul a _).symm
      _ ≤ b * 1000000000 := Nat.mul_le_mul_right _ h
  rw [UInt64.lt_iff_toNat_lt, toNat_timestampAt_of_lt hb,
    toNat_timestampAt_of_lt (Nat.lt_of_lt_of_le hnanos (Nat.le_of_lt hb))]
  exact hnanos

theorem nanosAt_le_exact : (nanosAt rate points : ℚ) ≤ exactNanos rate points := by
  have h := @Nat.cast_div_le ℚ _ _ _ (points * 1000000000) (max rate.toNat 1)
  rw [exactNanos]
  exact_mod_cast h

theorem exact_lt_nanosAt : exactNanos rate points < nanosAt rate points + 1 := by
  have hpos : 0 < max rate.toNat 1 := Nat.lt_of_lt_of_le Nat.one_pos (Nat.le_max_right ..)
  have h : points * 1000000000 < (nanosAt rate points + 1) * max rate.toNat 1 :=
    Nat.lt_mul_of_div_lt (Nat.lt_succ_self _) hpos
  rw [exactNanos, div_lt_iff₀ (by exact_mod_cast hpos)]
  exact_mod_cast h

/-- Both ends are rounded down, so that what is dropped at one of them makes up for what is dropped
at the other. -/
theorem abs_elapsed_lt (ha : nanosAt rate a < UInt64.size) (hb : nanosAt rate b < UInt64.size) :
    |((timestampAt rate b).toNat : ℚ) - (timestampAt rate a).toNat
      - exactNanos rate ((b : ℚ) - a)| < 1 := by
  have hsplit : exactNanos rate ((b : ℚ) - a) = exactNanos rate b - exactNanos rate a := by
    rw [exactNanos, exactNanos, exactNanos, sub_mul, sub_div]
  have hla : (nanosAt rate a : ℚ) ≤ exactNanos rate a := nanosAt_le_exact
  have hlb : (nanosAt rate b : ℚ) ≤ exactNanos rate b := nanosAt_le_exact
  have hua : exactNanos rate a < nanosAt rate a + 1 := exact_lt_nanosAt
  have hub : exactNanos rate b < nanosAt rate b + 1 := exact_lt_nanosAt
  rw [toNat_timestampAt_of_lt ha, toNat_timestampAt_of_lt hb, hsplit, abs_lt]
  constructor <;> linarith

theorem timestampAt?_eq (points : UInt64) :
    timestampAt? rate points = some (timestampAt rate points.toNat) := by
  have hwide : points.toNat * 1000000000 < 2 ^ 128 := by
    have := points.toNat_lt
    omega
  rw [timestampAt?, wideMul?, if_pos hwide]
  change some _ = some _
  rw [timestampAt]
  split_ifs with h
  · rw [Nat.min_eq_right (Nat.le_sub_one_of_lt h)]
  · rw [Nat.min_eq_left (Nat.le_trans (Nat.sub_le ..) (Nat.not_lt.mp h))]

/-- As long as the points fit in a word, no sum and no product is beyond its own. -/
theorem stampEach?_eq {points : UInt64}
    (h : points.toNat + (lengths.map (·.toNat)).sum < UInt64.size) :
    stampEach? rate points lengths = some (stamps rate points.toNat lengths) := by
  induction lengths generalizing points with
  | nil => rfl
  | cons length lengths ih =>
    rw [List.map_cons, List.sum_cons, ← Nat.add_assoc] at h
    have hfirst : points.toNat + length.toNat < UInt64.size :=
      Nat.lt_of_le_of_lt (Nat.le_add_right ..) h
    have hafter : (UInt64.ofNat (points.toNat + length.toNat)).toNat =
        points.toNat + length.toNat := UInt64.toNat_ofNat_of_lt' hfirst
    have hrest := @ih (UInt64.ofNat (points.toNat + length.toNat)) (by rwa [hafter])
    rw [stampEach?, timestampAt?_eq, add?_of_lt hfirst]
    change (stampEach? rate (UInt64.ofNat (points.toNat + length.toNat)) lengths).map _ = _
    rw [hrest, hafter]
    rfl

theorem pointsBefore_mono (h : a ≤ b) : pointsBefore lengths a ≤ pointsBefore lengths b := by
  obtain ⟨more, he⟩ := List.take_prefix_take_left h (l := lengths)
  rw [pointsBefore, pointsBefore, ← he, List.map_append, List.sum_append]
  exact Nat.le_add_right ..

theorem pointsBefore_succ {length : UInt32} (h : lengths[k]? = some length) :
    pointsBefore lengths (k + 1) = pointsBefore lengths k + length.toNat := by
  rw [pointsBefore, List.take_add_one, h]
  simp [pointsBefore]

theorem getElem?_stamps :
    (stamps rate points lengths)[k]? =
      (lengths[k]?).map fun _ => timestampAt rate (points + pointsBefore lengths k) := by
  induction lengths generalizing points k with
  | nil => rfl
  | cons length lengths ih =>
    cases k with
    | zero => rfl
    | succ k =>
      rw [stamps, List.getElem?_cons_succ, List.getElem?_cons_succ, ih, Nat.add_assoc]
      rfl

theorem length_stamps : (stamps rate points lengths).length = lengths.length := by
  induction lengths generalizing points with
  | nil => rfl
  | cons length lengths ih => exact congrArg (· + 1) ih

theorem eq_timestampAt_of_getElem? {t : UInt64} (h : (stamps rate 0 lengths)[k]? = some t) :
    k < lengths.length ∧ t = timestampAt rate (pointsBefore lengths k) := by
  rw [getElem?_stamps, Option.map_eq_some_iff, Nat.zero_add] at h
  obtain ⟨length, hk, rfl⟩ := h
  exact ⟨(List.getElem?_eq_some_iff.mp hk).1, rfl⟩

theorem pointsBefore_lt (hpos : ∀ length ∈ lengths, 0 < length) (h : a < b)
    (hb : b ≤ lengths.length) : pointsBefore lengths a < pointsBefore lengths b := by
  obtain ⟨length, ha⟩ : ∃ length, lengths[a]? = some length :=
    ⟨_, List.getElem?_eq_getElem (h.trans_le hb)⟩
  have hlength : 0 < length.toNat :=
    UInt32.lt_iff_toNat_lt.mp (hpos _ (List.mem_of_getElem? ha))
  calc pointsBefore lengths a < pointsBefore lengths (a + 1) := by
        rw [pointsBefore_succ ha]
        exact Nat.lt_add_of_pos_right hlength
    _ ≤ pointsBefore lengths b := pointsBefore_mono h

theorem keepsTime_stamps (hpos : ∀ length ∈ lengths, 0 < length) :
    KeepsTime rate lengths (stamps rate 0 lengths) := by
  constructor
  case length => exact length_stamps
  case exact =>
    intro k t ht
    rw [(eq_timestampAt_of_getElem? ht).2, toNat_timestampAt]
  case words => exact fun h => @stampEach?_eq _ _ 0 (by simpa using h)
  case sorted =>
    rw [List.pairwise_iff_getElem]
    intro j k hj hk hlt
    have ht := (eq_timestampAt_of_getElem? (List.getElem?_eq_getElem hj)).2
    have hu := (eq_timestampAt_of_getElem? (List.getElem?_eq_getElem hk)).2
    rw [ht, hu]
    exact timestampAt_mono (pointsBefore_mono (Nat.le_of_lt hlt))
  case driftless =>
    intro j k t u ht hu hj hk
    rw [(eq_timestampAt_of_getElem? ht).2, (eq_timestampAt_of_getElem? hu).2]
    exact abs_elapsed_lt hj hk
  case increasing =>
    intro hlow hhigh j k t u hlt ht hu hsize
    obtain ⟨hk, hu⟩ := eq_timestampAt_of_getElem? hu
    rw [(eq_timestampAt_of_getElem? ht).2, hu]
    exact timestampAt_strictMono hlow hhigh (pointsBefore_lt hpos hlt (Nat.le_of_lt hk)) hsize

theorem stamps_append (more : List UInt32) :
    stamps rate points (lengths ++ more) =
      stamps rate points lengths ++ stamps rate (points + (lengths.map (·.toNat)).sum) more := by
  induction lengths generalizing points with
  | nil => rfl
  | cons first lengths ih =>
    rw [List.cons_append, stamps, ih, stamps, List.map_cons, List.sum_cons, Nat.add_assoc]
    rfl

namespace Tape

theorem lengths_frames (ds : List Delivery) {station : Station} :
    (ofDeliveries station ds).frames.map (·.pointsPerChannel) =
      ds.filterMap (·.block? station) := by
  induction ds using List.reverseRecOn with
  | nil => rfl
  | append_singleton ds d ih =>
    rw [ofDeliveries_concat, List.filterMap_append, ← ih, add]
    cases hd : d.block? station <;> simp [hd, lay, cut, Frame.ofBuffers]

theorem stamps_frames (ds : List Delivery) {station : Station} :
    let t := ofDeliveries station ds
    t.points = ((t.frames.map (·.pointsPerChannel)).map (·.toNat)).sum ∧
      t.frames.map (·.timestamp) =
        stamps station.rate 0 (t.frames.map (·.pointsPerChannel)) := by
  intro t
  induction ds using List.reverseRecOn with
  | nil => exact ⟨rfl, rfl⟩
  | append_singleton ds d ih =>
    obtain ⟨hpoints, hstamps⟩ := ih
    simp only [t, ofDeliveries_concat, add]
    cases hd : d.block? station with
    | none => exact ⟨hpoints, hstamps⟩
    | some points =>
      simp only [lay, List.map_append, List.map_cons, List.map_nil, stamps_append, hstamps,
        List.sum_append, ← hpoints]
      exact ⟨rfl, by simp [cut, Frame.ofBuffers, stamps]⟩

end Tape
end SampleCast
