import SampleCast.Proofs.Wire.InPlace
import SampleCast.Slot
import SampleCast.Source.Pattern

/-! The simulated device in place.
The device writes its samples one by one into the buffers of its caller, at positions that are
computed in words of 64 bits. `acquire?` does so and answers `none` where a sum or a product is
beyond a word or a position outside of its buffer; `Frame.refill?` is the same for a block that is
cut out of the buffers and written over the one before it. Main statements: `acquire?_eq`, that a
device whose phase is within its period never does so and leaves in the buffers what `acquire`
delivers, and `refill?_eq`. -/

namespace SampleCast

open Payload (add? mul? slice? add?_of_lt mul?_of_lt slice?_of_le)

def put? {α : Type} (buffer : List α) (place : Nat) (a : α) : Option (List α) :=
  if place < buffer.length then some (buffer.set place a) else none

section

variable {α : Type} {buffer xs ys : List α} {place : Nat}

def paste (buffer : List α) (place : Nat) (items : List α) : List α :=
  buffer.take place ++ items ++ buffer.drop (place + items.length)

theorem length_paste (h : place + xs.length ≤ buffer.length) :
    (paste buffer place xs).length = buffer.length := by
  simp only [paste, List.length_append, List.length_take, List.length_drop]
  omega

theorem paste_nil : paste buffer place [] = buffer := by
  simp [paste]

theorem paste_append (ys : List α) (h : place + xs.length ≤ buffer.length) :
    paste (paste buffer place xs) (place + xs.length) ys = paste buffer place (xs ++ ys) := by
  have hfront : (buffer.take place ++ xs).length = place + xs.length := by
    rw [List.length_append, List.length_take]
    omega
  have htake : (paste buffer place xs).take (place + xs.length) = buffer.take place ++ xs := by
    rw [paste, ← hfront, List.take_left]
  have hdrop : (paste buffer place xs).drop (place + xs.length + ys.length) =
      buffer.drop (place + (xs ++ ys).length) := by
    rw [← List.drop_drop, paste, ← hfront, List.drop_left, hfront, List.drop_drop,
      List.length_append, Nat.add_assoc]
  rw [paste, htake, hdrop, paste, List.append_assoc (buffer.take place)]

theorem paste_cons {a : α} (h : place < buffer.length) :
    paste (paste buffer place [a]) (place + 1) xs = paste buffer place (a :: xs) :=
  @paste_append α buffer [a] place xs h

theorem put?_eq {a : α} (h : place < buffer.length) :
    put? buffer place a = some (paste buffer place [a]) := by
  rw [put?, if_pos h, List.set_eq_take_append_cons_drop, if_pos h, paste, List.append_assoc]
  rfl

theorem overlay_eq_paste (h : xs.length ≤ buffer.length) :
    overlay xs buffer = paste buffer 0 xs := by
  rw [overlay, paste, List.take_of_length_le h, List.take_zero, Nat.zero_add]
  rfl

end

structure SampleBuffers where
  analog : List Level
  digital : List Bool

namespace Device

/-- Writes `n` points of a channel, whose place begins at `base`, from point `i` on. -/
def fillPoints (channel phase base : Nat) : Nat → Nat → SampleBuffers → Option SampleBuffers
  | 0, _, b => some b
  | n + 1, i, b => do
    let place ← add? base i
    let point ← add? phase i
    let analog ← put? b.analog place (analogValue point)
    let digital ← put? b.digital place (digitalValue channel point)
    fillPoints channel phase base n (i + 1) ⟨analog, digital⟩

def fillChannels (phase points : Nat) : Nat → Nat → SampleBuffers → Option SampleBuffers
  | 0, _, b => some b
  | k + 1, channel, b => do
    let b ← fillPoints channel phase (← mul? channel points) points 0 b
    fillChannels phase points k (channel + 1) b

def acquire? (d : Device) (s : DeviceState) (maxPoints : UInt32) (b : SampleBuffers) :
    Option (Except SourceError UInt32 × SampleBuffers × DeviceState) :=
  if d.faultAfter.any (· ≤ s.calls) then
    some (.error (.device s!"simulated fault after {s.calls} calls"), b, s)
  else do
    let points := (d.pointsFor maxPoints).toNat
    let needed ← mul? d.channels.toNat points
    let actual := min b.analog.length b.digital.length
    if actual < needed then some (.error (.bufferTooSmall needed actual), b, s)
    else
      let b ← fillChannels s.phase points d.channels.toNat 0 b
      let stop ← add? s.phase points
      some (.ok (d.pointsFor maxPoints), b, ⟨stop % period, s.calls + 1⟩)

variable {channel phase base n k i : Nat} {b : SampleBuffers}

theorem length_ramp : (ramp phase n).length = n := by simp [ramp]

theorem length_trigger : (trigger channel phase n).length = n := by simp [trigger]

theorem fillPoints_eq (ha : base + i + n ≤ b.analog.length) (hd : base + i + n ≤ b.digital.length)
    (hplace : base + i + n < UInt64.size) (hpoint : phase + i + n < UInt64.size) :
    fillPoints channel phase base n i b =
      some ⟨paste b.analog (base + i) ((List.range' i n).map fun j => analogValue (phase + j)),
        paste b.digital (base + i)
          ((List.range' i n).map fun j => digitalValue channel (phase + j))⟩ := by
  induction n generalizing i b with
  | zero => simp only [fillPoints, List.range'_zero, List.map_nil, paste_nil]
  | succ n ih =>
    have hia : base + i < b.analog.length := by omega
    have hid : base + i < b.digital.length := by omega
    have hla : (paste b.analog (base + i) [analogValue (phase + i)]).length = b.analog.length :=
      length_paste hia
    have hld : (paste b.digital (base + i) [digitalValue channel (phase + i)]).length =
        b.digital.length := length_paste hid
    rw [fillPoints, add?_of_lt (by omega), add?_of_lt (by omega)]
    simp only [Option.bind_eq_bind, Option.bind_some, put?_eq hia, put?_eq hid]
    rw [ih (by simp only [hla]; omega) (by simp only [hld]; omega) (by omega) (by omega)]
    simp only [← Nat.add_assoc base i 1, paste_cons hia, paste_cons hid, List.range'_succ,
      List.map_cons]

def stack {α : Type} (channel k : Nat) (block : Nat → List α) : List α :=
  (List.range' channel k).flatMap block

theorem stack_succ {α : Type} (block : Nat → List α) :
    stack channel (k + 1) block = block channel ++ stack (channel + 1) k block := by
  rw [stack, List.range'_succ, List.flatMap_cons, stack]

theorem fillChannels_eq (ha : (channel + k) * n ≤ b.analog.length)
    (hd : (channel + k) * n ≤ b.digital.length) (hplace : (channel + k) * n < UInt64.size)
    (hpoint : phase + n < UInt64.size) :
    fillChannels phase n k channel b =
      some ⟨paste b.analog (channel * n) (stack channel k fun _ => ramp phase n),
        paste b.digital (channel * n) (stack channel k fun c => trigger c phase n)⟩ := by
  induction k generalizing channel b with
  | zero => simp only [fillChannels, stack, List.range'_zero, List.flatMap_nil, paste_nil]
  | succ k ih =>
    have hnext : channel + 1 + k = channel + (k + 1) := by omega
    have hstart : channel * n + n = (channel + 1) * n := (Nat.succ_mul channel n).symm
    have hwhole : (channel + (k + 1)) * n = channel * n + n + k * n := by
      rw [← hnext, Nat.add_mul, hstart]
    have hramp : (ramp phase n).length = n := length_ramp
    have htrigger : (trigger channel phase n).length = n := length_trigger
    have hla : (paste b.analog (channel * n) (ramp phase n)).length = b.analog.length :=
      length_paste (by omega)
    have hld : (paste b.digital (channel * n) (trigger channel phase n)).length =
        b.digital.length := length_paste (by omega)
    have hpoints : fillPoints channel phase (channel * n) n 0 b =
        some ⟨paste b.analog (channel * n) (ramp phase n),
          paste b.digital (channel * n) (trigger channel phase n)⟩ := by
      rw [fillPoints_eq (by omega) (by omega) (by omega) (by omega), ramp, trigger,
        List.range_eq_range']
      rfl
    rw [fillChannels, mul?_of_lt (by omega)]
    simp only [Option.bind_eq_bind, Option.bind_some, hpoints]
    rw [ih (by simp only [hla, hnext]; exact ha) (by simp only [hld, hnext]; exact hd)
      (hnext ▸ hplace)]
    have hanalog := paste_append (stack (channel + 1) k fun _ => ramp phase n)
      (show channel * n + (ramp phase n).length ≤ b.analog.length by omega)
    have hdigital := paste_append (stack (channel + 1) k fun c => trigger c phase n)
      (show channel * n + (trigger channel phase n).length ≤ b.digital.length by omega)
    rw [hramp, hstart] at hanalog
    rw [htrigger, hstart] at hdigital
    rw [hanalog, hdigital, stack_succ, stack_succ]

theorem perChannel_eq {α : Type} (d : Device) {block : Nat → List α}
    (hb : n = 0 → ∀ c, block c = []) :
    d.perChannel n block = stack 0 d.channels.toNat block := by
  rw [perChannel, stack, ← List.range_eq_range']
  by_cases hn : n = 0
  · rw [if_pos hn, eq_comm, List.flatMap_eq_nil_iff]
    exact fun c _ => hb hn c
  · rw [if_neg hn]

theorem perChannel_ramp (d : Device) : d.perChannel n (fun _ => ramp phase n) =
    stack 0 d.channels.toNat fun _ => ramp phase n :=
  perChannel_eq d fun h0 _ => List.length_eq_zero_iff.mp (length_ramp.trans h0)

theorem perChannel_trigger (d : Device) : d.perChannel n (fun c => trigger c phase n) =
    stack 0 d.channels.toNat fun c => trigger c phase n :=
  perChannel_eq d fun h0 _ => List.length_eq_zero_iff.mp (length_trigger.trans h0)

theorem length_stack {α : Type} {block : Nat → List α} (hb : ∀ c, (block c).length = n) :
    (stack channel k block).length = k * n := by
  rw [stack, Frame.length_flatMap_of_forall fun c _ => hb c, List.length_range']

theorem acquire?_eq {s : DeviceState} (hs : s.phase < period) (d : Device) (maxPoints : UInt32)
    (timeout : Duration) (b : SampleBuffers) :
    let answer := d.acquire s ⟨maxPoints, timeout, b.analog.length, b.digital.length⟩
    d.acquire? s maxPoints b = some (answer.1.result,
      ⟨overlay answer.1.analog b.analog, overlay answer.1.digital b.digital⟩, answer.2) := by
  have hneeded : d.channels.toNat * (d.pointsFor maxPoints).toNat < UInt64.size :=
    Nat.mul_lt_mul'' (UInt32.toNat_lt _) (UInt32.toNat_lt _)
  have hpoints : (d.pointsFor maxPoints).toNat < UInt32.size := UInt32.toNat_lt _
  by_cases hfault : d.faultAfter.any (· ≤ s.calls)
  · simp only [acquire?, acquire, if_pos hfault, overlay_nil]
  simp only [acquire?, acquire, if_neg hfault, mul?_of_lt hneeded, Option.bind_eq_bind,
    Option.bind_some]
  generalize (d.pointsFor maxPoints).toNat = points at *
  by_cases hroom : min b.analog.length b.digital.length < d.channels.toNat * points
  · simp only [if_pos hroom, overlay_nil]
  have hanalog : d.channels.toNat * points ≤ b.analog.length := by omega
  have hdigital : d.channels.toNat * points ≤ b.digital.length := by omega
  have hphase : s.phase + points < UInt64.size := by
    have hsmall : period + UInt32.size < UInt64.size := by decide
    omega
  have hfill : fillChannels s.phase points d.channels.toNat 0 b =
      some ⟨paste b.analog (0 * points) (stack 0 d.channels.toNat fun _ => ramp s.phase points),
        paste b.digital (0 * points)
          (stack 0 d.channels.toNat fun c => trigger c s.phase points)⟩ :=
    fillChannels_eq (by rwa [Nat.zero_add]) (by rwa [Nat.zero_add]) (by rwa [Nat.zero_add]) hphase
  have hla : (stack 0 d.channels.toNat fun _ => ramp s.phase points).length =
      d.channels.toNat * points := length_stack fun _ => length_ramp
  have hld : (stack 0 d.channels.toNat fun c => trigger c s.phase points).length =
      d.channels.toNat * points := length_stack fun _ => length_trigger
  simp only [if_neg hroom, hfill, Option.bind_some, add?_of_lt hphase, perChannel_ramp,
    perChannel_trigger, Nat.zero_mul]
  rw [overlay_eq_paste (by omega), overlay_eq_paste (by omega)]

end Device

namespace Frame

/-- Cuts a block out of the beginnings of two buffers and writes it over a frame. -/
def refill? (f : Frame) (timestamp : UInt64) (channels points : UInt32) (b : SampleBuffers) :
    Option Frame := do
  let area ← mul? channels.toNat points.toNat
  some (f.refill
    ⟨timestamp, channels, points, ← slice? b.analog 0 area, ← slice? b.digital 0 area⟩)

theorem refill?_eq {f : Frame} {timestamp : UInt64} {channels points : UInt32} {b : SampleBuffers}
    (ha : channels.toNat * points.toNat ≤ b.analog.length)
    (hd : channels.toNat * points.toNat ≤ b.digital.length) :
    f.refill? timestamp channels points b =
      some (.ofBuffers timestamp channels points b.analog b.digital) := by
  have harea : channels.toNat * points.toNat < UInt64.size :=
    Nat.mul_lt_mul'' (UInt32.toNat_lt _) (UInt32.toNat_lt _)
  simp only [refill?, mul?_of_lt harea, slice?_of_le (Nat.zero_le _) ha,
    slice?_of_le (Nat.zero_le _) hd, Option.bind_eq_bind, Option.bind_some, List.drop_zero,
    Nat.sub_zero, refill_eq, ofBuffers]

end Frame
end SampleCast
