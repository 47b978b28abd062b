import Mathlib.Algebra.Group.Nat.Defs
import SampleCast.Proofs.Frame
import SampleCast.Proofs.Wire.Payload
import SampleCast.Wire.Message

/-! Payloads in place.
A payload is read out of one array and written into another by positions, and the positions are
computed in words of 64 bits. Much could go wrong there: a sum or a product beyond a word, a slice
outside of its array, a place that is not as long as what is put there, samples that do not fill the
shape, more memory asked for than there can be. `decode?` answers `none` in all of these cases, and
`append?` where a slice or a place does not fit. Main statements: `decode?_eq` and `append?_eq`,
that none of this occurs and that the results are those of `decode` and `append`, and
`codec_bijective`. -/

namespace SampleCast.Payload

def add? (a b : Nat) : Option Nat := if a + b < UInt64.size then some (a + b) else none

def mul? (a b : Nat) : Option Nat := if a * b < UInt64.size then some (a * b) else none

/-- The largest number of bytes that a program can hold in one piece of memory. -/
def memory : Nat := 2 ^ 63

def zeros? (count : Nat) : Option (List Level) :=
  if count * 8 < memory then some (List.replicate count 0) else none

def slice? {α : Type} (xs : List α) (start stop : Nat) : Option (List α) :=
  if start ≤ stop ∧ stop ≤ xs.length then some ((xs.drop start).take (stop - start)) else none

def overwrite? {α : Type} (xs : List α) (start stop : Nat) (items : List α) : Option (List α) :=
  if start ≤ stop ∧ stop ≤ xs.length ∧ items.length = stop - start then
    some (xs.take start ++ items ++ xs.drop stop)
  else none

/-- Reads `k` channels from a position on. The analog samples go into an array that has room for all
channels, the digital ones behind those that are there. -/
def readChannels (bytes : List UInt8) (points : Nat) : Nat → Nat → Nat → List Level → List Bool →
    Option (Except PayloadFlaw (List Level × List Bool))
  | 0, _, _, analog, digital => some (.ok (analog, digital))
  | k + 1, channel, pos, analog, digital => do
    let first ← mul? channel points
    let last ← mul? (← add? channel 1) points
    let middle ← add? pos (← mul? points 8)
    let stop ← add? middle points
    let analog ← overwrite? analog first last (levels (← slice? bytes pos middle))
    match bits channel (← slice? bytes middle stop) with
    | .error e => some (.error e)
    | .ok more => readChannels bytes points k (channel + 1) stop analog (digital ++ more)

def decode? (bytes : List UInt8) : Option (Except PayloadFlaw Frame) :=
  if bytes.length < headerSize then some (.error (.shorterThanHeader bytes.length))
  else do
    let timestamp := BigEndian.decode (← slice? bytes 0 8)
    let channels := BigEndian.decode (← slice? bytes 8 12)
    let points := BigEndian.decode (← slice? bytes 12 16)
    let area ← mul? channels points
    -- An overflow here is seen, and counts as a size that does not fit.
    if (mul? area bytesPerPoint).bind (add? · headerSize) = some bytes.length then
      match ← readChannels bytes points channels 0 headerSize (← zeros? area) [] with
      | .error e => some (.error e)
      | .ok (analog, digital) =>
        match Frame.ofSamples (UInt64.ofNat timestamp) (UInt32.ofNat channels)
          (UInt32.ofNat points) analog digital with
        -- There is no flaw that says that samples were lost on the way.
        | .error _ => none
        | .ok f => some (.ok f)
    else some (.error (.misfit channels points bytes.length))

def window? {α : Type} (f : Frame) (samples : List α) (channel : Nat) : Option (List α) :=
  let start := channel * f.pointsPerChannel.toNat
  slice? samples start (start + f.pointsPerChannel.toNat)

def writeChannels (f : Frame) : Nat → Nat → Nat → List UInt8 → Option (List UInt8)
  | 0, _, _, out => some out
  | k + 1, channel, pos, out => do
    let middle := pos + f.pointsPerChannel.toNat * 8
    let stop := middle + f.pointsPerChannel.toNat
    let out ← overwrite? out pos middle (levelBytes (← window? f f.analog channel))
    let out ← overwrite? out middle stop (bitBytes (← window? f f.digital channel))
    writeChannels f k (channel + 1) stop out

/-- Makes room behind what the buffer holds and fills it. -/
def append? (f : Frame) (buffer : List UInt8) : Option (List UInt8) := do
  let start := buffer.length
  let out := buffer ++ List.replicate (size f) 0
  let out ← overwrite? out start (start + 8) (BigEndian.encode 8 f.timestamp.toNat)
  let out ← overwrite? out (start + 8) (start + 12) (BigEndian.encode 4 f.channelCount.toNat)
  let out ← overwrite? out (start + 12) (start + 16) (BigEndian.encode 4 f.pointsPerChannel.toNat)
  writeChannels f f.channelCount.toNat 0 (start + headerSize) out

variable {bytes : List UInt8} {points k channel pos : Nat} {done : List Level}
  {digital : List Bool} {f : Frame}

theorem add?_of_lt {a b : Nat} (h : a + b < UInt64.size) : add? a b = some (a + b) := if_pos h

theorem mul?_of_lt {a b : Nat} (h : a * b < UInt64.size) : mul? a b = some (a * b) := if_pos h

theorem slice?_of_le {α : Type} {xs : List α} {start stop : Nat} (h : start ≤ stop)
    (hs : stop ≤ xs.length) : slice? xs start stop = some ((xs.drop start).take (stop - start)) :=
  if_pos ⟨h, hs⟩

theorem overwrite?_between {α : Type} {front old back items : List α} {start stop : Nat}
    (hstart : start = front.length) (hstop : stop = start + old.length)
    (hitems : items.length = old.length) :
    overwrite? (front ++ old ++ back) start stop items = some (front ++ items ++ back) := by
  have hfront : (front ++ old ++ back).take start = front := by
    rw [hstart, List.append_assoc, List.take_left]
  have hback : (front ++ old ++ back).drop stop = back := by
    rw [hstop, hstart, ← List.length_append, List.drop_left]
  have hfits : start ≤ stop ∧ stop ≤ (front ++ old ++ back).length ∧
      items.length = stop - start := by
    simp only [List.length_append]
    omega
  rw [overwrite?, if_pos hfits, hfront, hback]

theorem readChannels_succ (hmemory : bytes.length < memory) (hcount : channel < UInt32.size)
    (hpoints : points < UInt32.size) (hdone : done.length = channel * points)
    (hpos : pos = headerSize + channel * points * bytesPerPoint)
    (hlen : bytes.length = pos + (k + 1) * points * bytesPerPoint) :
    readChannels bytes points (k + 1) channel pos
        (done ++ List.replicate ((k + 1) * points) 0) digital =
      match bits channel (((bytes.drop pos).drop (points * 8)).take points) with
      | .error e => some (.error e)
      | .ok more => readChannels bytes points k (channel + 1) (pos + points * bytesPerPoint)
          (done ++ levels ((bytes.drop pos).take (points * 8)) ++ List.replicate (k * points) 0)
          (digital ++ more) := by
  have hk : (k + 1) * points = k * points + points := Nat.succ_mul k points
  have hc : (channel + 1) * points = channel * points + points := Nat.succ_mul channel points
  have h64 : UInt64.size = 2 ^ 64 := rfl
  have h32 : UInt32.size = 2 ^ 32 := rfl
  -- Every number below is at most the length of the bytes, but for the places of the samples, which
  -- are products of two words of 32 bits.
  rw [headerSize, bytesPerPoint] at hpos
  rw [hk, bytesPerPoint] at hlen
  rw [memory] at hmemory
  have hfirst : mul? channel points = some (channel * points) := mul?_of_lt (by omega)
  have hnext : add? channel 1 = some (channel + 1) := add?_of_lt (by omega)
  have hlast : mul? (channel + 1) points = some ((channel + 1) * points) := mul?_of_lt (by omega)
  have hwidth : mul? points 8 = some (points * 8) := mul?_of_lt (by omega)
  have hmiddle : add? pos (points * 8) = some (pos + points * 8) := add?_of_lt (by omega)
  have hstop : add? (pos + points * 8) points = some (pos + points * bytesPerPoint) := by
    rw [add?_of_lt (by omega), bytesPerPoint, Nat.add_assoc, ← Nat.mul_succ]
  have hwords : slice? bytes pos (pos + points * 8) =
      some ((bytes.drop pos).take (points * 8)) := by
    rw [slice?_of_le (by omega) (by omega), Nat.add_sub_cancel_left]
  have hbits : slice? bytes (pos + points * 8) (pos + points * bytesPerPoint) =
      some (((bytes.drop pos).drop (points * 8)).take points) := by
    have hwide : pos + points * 9 - (pos + points * 8) = points := by omega
    rw [bytesPerPoint, slice?_of_le (by omega) (by omega), hwide, List.drop_drop]
  have hcut : ((bytes.drop pos).take (points * 8)).length = points * 8 := by
    rw [List.length_take, List.length_drop]
    omega
  have hput : overwrite? (done ++ List.replicate ((k + 1) * points) 0) (channel * points)
      ((channel + 1) * points) (levels ((bytes.drop pos).take (points * 8))) =
      some (done ++ levels ((bytes.drop pos).take (points * 8)) ++
        List.replicate (k * points) 0) := by
    rw [hk, Nat.add_comm (k * points), ← List.replicate_append_replicate, ← List.append_assoc]
    refine overwrite?_between hdone.symm ?_ ?_
    · rw [List.length_replicate, hc]
    · rw [List.length_replicate, (levelBytes_levels hcut).2]
  rw [readChannels]
  simp only [hfirst, hnext, hlast, hwidth, hmiddle, hstop, hwords, hbits, hput,
    Option.bind_eq_bind, Option.bind_some]

theorem readChannels_eq (hmemory : bytes.length < memory) (hcount : channel + k < UInt32.size)
    (hpoints : points < UInt32.size) (hdone : done.length = channel * points)
    (hpos : pos = headerSize + channel * points * bytesPerPoint)
    (hlen : bytes.length = pos + k * points * bytesPerPoint) :
    readChannels bytes points k channel pos (done ++ List.replicate (k * points) 0) digital =
      some ((samples points k channel (bytes.drop pos)).map fun more =>
        (done ++ more.1, digital ++ more.2)) := by
  -- `done` is what the channels before have filled of the array, and zeros are all that is left.
  induction k generalizing channel pos done digital with
  | zero => simp [readChannels, samples, Except.map]
  | succ k ih =>
    have hk : (k + 1) * points = k * points + points := Nat.succ_mul k points
    have hc : (channel + 1) * points = channel * points + points := Nat.succ_mul channel points
    have hrest : (bytes.drop pos).length = (k + 1) * points * bytesPerPoint := by
      rw [List.length_drop]
      omega
    rw [readChannels_succ hmemory (by omega) hpoints hdone hpos hlen, samples_succ hrest]
    cases bits channel (((bytes.drop pos).drop (points * 8)).take points) with
    | error e => rfl
    | ok more =>
      rw [hk, bytesPerPoint] at hrest
      have hcut : ((bytes.drop pos).take (points * 8)).length = points * 8 := by
        rw [List.length_take, hrest]
        omega
      have hdone' : (done ++ levels ((bytes.drop pos).take (points * 8))).length =
          (channel + 1) * points := by
        rw [List.length_append, hdone, (levelBytes_levels hcut).2, hc]
      have hpos' : pos + points * bytesPerPoint =
          headerSize + (channel + 1) * points * bytesPerPoint := by
        rw [hpos, hc, Nat.add_mul, Nat.add_assoc]
      have hlen' : bytes.length =
          pos + points * bytesPerPoint + k * points * bytesPerPoint := by
        rw [hlen, hk, Nat.add_mul]
        omega
      dsimp only
      rw [ih (by omega) hdone' hpos' hlen', List.drop_drop]
      cases samples points k (channel + 1) (bytes.drop (pos + points * bytesPerPoint)) with
      | error e => rfl
      | ok rest => simp only [Except.map, List.append_assoc]

theorem readChannels_start {channels : Nat} (hmemory : bytes.length < memory)
    (hc : channels < UInt32.size) (hp : points < UInt32.size)
    (hlen : bytes.length = headerSize + channels * points * bytesPerPoint) :
    readChannels bytes points channels 0 headerSize (List.replicate (channels * points) 0) [] =
      some (samples points channels 0 (bytes.drop headerSize)) := by
  have hread : readChannels bytes points channels 0 headerSize
      ([] ++ List.replicate (channels * points) 0) [] =
      some ((samples points channels 0 (bytes.drop headerSize)).map fun more =>
        ([] ++ more.1, [] ++ more.2)) :=
    readChannels_eq hmemory (by omega) hp (by simp) (by simp) hlen
  rw [← List.nil_append (List.replicate (channels * points) 0), hread]
  cases samples points channels 0 (bytes.drop headerSize) with
  | error e => rfl
  | ok both => rfl

theorem size?_eq_some_iff {area n : Nat} (h : n < memory) :
    (mul? area bytesPerPoint).bind (add? · headerSize) = some n ↔
      headerSize + area * bytesPerPoint = n := by
  have h64 : UInt64.size = 2 ^ 64 := rfl
  rw [memory] at h
  constructor
  · intro hs
    obtain ⟨m, hm, hadd⟩ := Option.bind_eq_some_iff.mp hs
    simp only [mul?, Option.ite_none_right_eq_some, Option.some.injEq] at hm
    simp only [add?, Option.ite_none_right_eq_some, Option.some.injEq] at hadd
    omega
  · intro hn
    have hmul : mul? area bytesPerPoint = some (area * bytesPerPoint) := mul?_of_lt (by omega)
    have hadd : add? (area * bytesPerPoint) headerSize =
        some (area * bytesPerPoint + headerSize) := add?_of_lt (by omega)
    rw [hmul, Option.bind_some, hadd, ← hn, Nat.add_comm]

theorem decode?_eq (h : bytes.length < memory) : decode? bytes = some (decode bytes) := by
  by_cases hheader : bytes.length < headerSize
  · rw [decode?, decode, if_pos hheader, if_pos hheader]
  · obtain ⟨g, body, rfl⟩ := exists_header (Nat.not_lt.mp hheader)
    obtain ⟨htime, hchannels, hpoints, hbody⟩ := header_fields g body
    have hlen : (header g ++ body).length = headerSize + body.length := by
      rw [List.length_append, length_header]
    have hlong : 16 ≤ (header g ++ body).length := Nat.not_lt.mp hheader
    have htime' : slice? (header g ++ body) 0 8 = some ((header g ++ body).take 8) := by
      rw [slice?_of_le (by omega) (by omega), List.drop_zero]
    have hchannels' : slice? (header g ++ body) 8 12 = some (((header g ++ body).drop 8).take 4) :=
      slice?_of_le (by omega) (by omega)
    have hpoints' : slice? (header g ++ body) 12 16 = some (((header g ++ body).drop 12).take 4) :=
      slice?_of_le (by omega) (by omega)
    have hc : g.channelCount.toNat < UInt32.size := g.channelCount.toNat_lt
    have hp : g.pointsPerChannel.toNat < UInt32.size := g.pointsPerChannel.toNat_lt
    have harea : mul? g.channelCount.toNat g.pointsPerChannel.toNat = some g.area :=
      mul?_of_lt (Nat.mul_lt_mul'' hc hp)
    have hfits : (mul? g.area bytesPerPoint).bind (add? · headerSize) =
        some (headerSize + body.length) ↔ g.area * bytesPerPoint = body.length := by
      rw [size?_eq_some_iff (hlen ▸ h), Nat.add_left_cancel_iff]
    rw [decode?, if_neg hheader, decode_header]
    simp only [htime', hchannels', hpoints', Option.bind_eq_bind, Option.bind_some, htime,
      hchannels, hpoints, harea, hlen, hfits]
    by_cases hfit : g.area * bytesPerPoint = body.length
    · have hzeros : zeros? g.area = some (List.replicate g.area 0) := by
        refine if_pos ?_
        rw [bytesPerPoint] at hfit
        omega
      have hread : readChannels (header g ++ body) g.pointsPerChannel.toNat g.channelCount.toNat 0
          headerSize (List.replicate g.area 0) [] =
          some (samples g.pointsPerChannel.toNat g.channelCount.toNat 0 body) := by
        rw [Frame.area, readChannels_start h hc hp (by rw [hlen, ← hfit, Frame.area]), hbody]
      rw [if_pos hfit, if_neg (not_not_intro hfit)]
      simp only [hzeros, Option.bind_some, hread]
      cases hs : samples g.pointsPerChannel.toNat g.channelCount.toNat 0 body with
      | error e => rfl
      | ok both =>
        obtain ⟨ha, hd, -⟩ := eq_blocks_of_samples hfit.symm hs
        have hshape : Frame.ofSamples g.timestamp g.channelCount g.pointsPerChannel both.1 both.2 =
            .ok { g with analog := both.1, digital := both.2 } :=
          Frame.ofSamples_eq_ok_iff.mpr ⟨rfl, ha, hd⟩
        simp only [UInt64.ofNat_toNat, UInt32.ofNat_toNat, hshape]
    · rw [if_neg hfit, if_pos hfit]

theorem window?_eq {α : Type} {samples : List α} (hs : samples.length = f.area)
    (hc : channel < f.channelCount.toNat) :
    window? f samples channel =
      some ((samples.drop (channel * f.pointsPerChannel.toNat)).take f.pointsPerChannel.toNat) := by
  have hend : (channel + 1) * f.pointsPerChannel.toNat ≤ f.area := Nat.mul_le_mul_right _ hc
  rw [Nat.succ_mul, ← hs] at hend
  rw [window?, slice?_of_le (Nat.le_add_right ..) hend, Nat.add_sub_cancel_left]

theorem writeChannels_succ {front rest : List UInt8} {levels : List Level} {bits : List Bool}
    (hlevels : window? f f.analog channel = some levels)
    (hbits : window? f f.digital channel = some bits)
    (hlevelsLen : levels.length = f.pointsPerChannel.toNat)
    (hbitsLen : bits.length = f.pointsPerChannel.toNat) :
    writeChannels f (k + 1) channel front.length
        (front ++ List.replicate (f.pointsPerChannel.toNat * bytesPerPoint) 0 ++ rest) =
      writeChannels f k (channel + 1) (front ++ levelBytes levels ++ bitBytes bits).length
        (front ++ levelBytes levels ++ bitBytes bits ++ rest) := by
  rw [writeChannels]
  generalize f.pointsPerChannel.toNat = points at *
  have hroom : front ++ List.replicate (points * bytesPerPoint) (0 : UInt8) ++ rest =
      front ++ List.replicate (points * 8) 0 ++ (List.replicate points 0 ++ rest) := by
    rw [bytesPerPoint, Nat.mul_succ, ← List.replicate_append_replicate]
    simp only [List.append_assoc]
  have hwords : overwrite? (front ++ List.replicate (points * 8) 0 ++
      (List.replicate points 0 ++ rest)) front.length (front.length + points * 8)
      (levelBytes levels) =
      some (front ++ levelBytes levels ++ (List.replicate points 0 ++ rest)) := by
    refine overwrite?_between rfl ?_ ?_
    · rw [List.length_replicate]
    · rw [length_levelBytes, hlevelsLen, List.length_replicate]
  have hsigns : overwrite? (front ++ levelBytes levels ++ (List.replicate points 0 ++ rest))
      (front.length + points * 8) (front.length + points * 8 + points) (bitBytes bits) =
      some (front ++ levelBytes levels ++ bitBytes bits ++ rest) := by
    rw [← List.append_assoc]
    refine overwrite?_between ?_ ?_ ?_
    · rw [List.length_append, length_levelBytes, hlevelsLen]
    · rw [List.length_replicate]
    · rw [length_bitBytes, hbitsLen, List.length_replicate]
  have hstop : (front ++ levelBytes levels ++ bitBytes bits).length =
      front.length + points * 8 + points := by
    rw [List.length_append, List.length_append, length_levelBytes, length_bitBytes, hlevelsLen,
      hbitsLen]
  rw [hroom, hstop]
  simp only [hlevels, hbits, hwords, hsigns, Option.bind_eq_bind, Option.bind_some]

theorem writeChannels_eq {front : List UInt8} (hf : f.WellShaped)
    (hk : channel + k = f.channelCount.toNat) :
    writeChannels f k channel front.length
        (front ++ List.replicate (k * f.pointsPerChannel.toNat * bytesPerPoint) 0) =
      some (front ++ blocks f.pointsPerChannel.toNat k
        (f.analog.drop (channel * f.pointsPerChannel.toNat))
        (f.digital.drop (channel * f.pointsPerChannel.toNat))) := by
  -- `front` is all that was written, and the zeros behind it are the room for `k` channels.
  induction k generalizing channel front with
  | zero => simp [writeChannels, blocks]
  | succ k ih =>
    have harea : f.area = channel * f.pointsPerChannel.toNat +
        (k + 1) * f.pointsPerChannel.toNat := by
      rw [← Nat.add_mul, hk, Frame.area]
    have ha : (f.analog.drop (channel * f.pointsPerChannel.toNat)).length =
        (k + 1) * f.pointsPerChannel.toNat := by
      rw [List.length_drop, hf.1, harea, Nat.add_sub_cancel_left]
    have hd : (f.digital.drop (channel * f.pointsPerChannel.toNat)).length =
        (k + 1) * f.pointsPerChannel.toNat := by
      rw [List.length_drop, hf.2, harea, Nat.add_sub_cancel_left]
    have hnext : (channel + 1) * f.pointsPerChannel.toNat =
        channel * f.pointsPerChannel.toNat + f.pointsPerChannel.toNat := Nat.succ_mul ..
    have hlevels : ((f.analog.drop (channel * f.pointsPerChannel.toNat)).take
        f.pointsPerChannel.toNat).length = f.pointsPerChannel.toNat := by
      rw [List.length_take, ha, Nat.succ_mul, Nat.min_eq_left (Nat.le_add_left ..)]
    have hbits : ((f.digital.drop (channel * f.pointsPerChannel.toNat)).take
        f.pointsPerChannel.toNat).length = f.pointsPerChannel.toNat := by
      rw [List.length_take, hd, Nat.succ_mul, Nat.min_eq_left (Nat.le_add_left ..)]
    have hroom : List.replicate ((k + 1) * f.pointsPerChannel.toNat * bytesPerPoint) (0 : UInt8) =
        List.replicate (f.pointsPerChannel.toNat * bytesPerPoint) 0 ++
          List.replicate (k * f.pointsPerChannel.toNat * bytesPerPoint) 0 := by
      rw [List.replicate_append_replicate, Nat.succ_mul, Nat.add_mul, Nat.add_comm]
    rw [hroom, ← List.append_assoc,
      writeChannels_succ (window?_eq hf.1 (by omega)) (window?_eq hf.2 (by omega)) hlevels hbits,
      ih (by omega), blocks_succ ha hd, List.drop_drop, List.drop_drop, ← hnext]
    simp only [List.append_assoc]

theorem append?_eq (hf : f.WellShaped) (buffer : List UInt8) :
    append? f buffer = some (append f buffer) := by
  have hzeros : List.replicate (size f) (0 : UInt8) = List.replicate 8 0 ++ List.replicate 4 0 ++
      List.replicate 4 0 ++
        List.replicate (f.channelCount.toNat * f.pointsPerChannel.toNat * bytesPerPoint) 0 := by
    rw [List.replicate_append_replicate, List.replicate_append_replicate,
      List.replicate_append_replicate, size_of_wellShaped hf, headerSize, Frame.area]
  generalize hspace : List.replicate
    (f.channelCount.toNat * f.pointsPerChannel.toNat * bytesPerPoint) (0 : UInt8) = space at *
  generalize htime : BigEndian.encode 8 f.timestamp.toNat = time at *
  generalize hchannels : BigEndian.encode 4 f.channelCount.toNat = channels at *
  generalize hpoints : BigEndian.encode 4 f.pointsPerChannel.toNat = points at *
  have htimeLen : time.length = 8 := by rw [← htime, BigEndian.length_encode]
  have hchannelsLen : channels.length = 4 := by rw [← hchannels, BigEndian.length_encode]
  have hpointsLen : points.length = 4 := by rw [← hpoints, BigEndian.length_encode]
  have hfirst : overwrite? (buffer ++ List.replicate (size f) 0) buffer.length
      (buffer.length + 8) time =
      some (buffer ++ time ++ (List.replicate 4 0 ++ (List.replicate 4 0 ++ space))) := by
    rw [hzeros, List.append_assoc, List.append_assoc, ← List.append_assoc]
    exact overwrite?_between rfl rfl htimeLen
  have hsecond : overwrite?
      (buffer ++ time ++ (List.replicate 4 0 ++ (List.replicate 4 0 ++ space)))
      (buffer.length + 8) (buffer.length + 12) channels =
      some (buffer ++ time ++ channels ++ (List.replicate 4 0 ++ space)) := by
    rw [← List.append_assoc]
    exact overwrite?_between (by rw [List.length_append, htimeLen]) rfl hchannelsLen
  have hthird : overwrite? (buffer ++ time ++ channels ++ (List.replicate 4 0 ++ space))
      (buffer.length + 12) (buffer.length + 16) points =
      some (buffer ++ time ++ channels ++ points ++ space) := by
    rw [← List.append_assoc]
    refine overwrite?_between ?_ rfl hpointsLen
    rw [List.length_append, List.length_append, htimeLen, hchannelsLen]
  have hlen : (buffer ++ time ++ channels ++ points).length = buffer.length + headerSize := by
    rw [List.length_append, List.length_append, List.length_append, htimeLen, hchannelsLen,
      hpointsLen, headerSize]
  have hwrite : writeChannels f f.channelCount.toNat 0 (buffer.length + headerSize)
      (buffer ++ time ++ channels ++ points ++ space) =
      some (buffer ++ time ++ channels ++ points ++
        blocks f.pointsPerChannel.toNat f.channelCount.toNat f.analog f.digital) := by
    rw [← hlen, ← hspace, writeChannels_eq hf (Nat.zero_add _), Nat.zero_mul, List.drop_zero,
      List.drop_zero]
  have hheader : header f = time ++ channels ++ points := by
    rw [header, htime, hchannels, hpoints]
  rw [append?, htime, hchannels, hpoints]
  simp only [hfirst, hsecond, hthird, Option.bind_eq_bind, Option.bind_some, hwrite]
  rw [append, encode, hheader]
  simp only [List.append_assoc]

end SampleCast.Payload

namespace SampleCast.Message

def append? (f : Frame) (buffer : List UInt8) : Option (List UInt8) :=
  Payload.append? f (buffer ++ Marker.data.bytes ++ lengthBytes f)

theorem append?_eq {f : Frame} (hf : f.WellShaped) (buffer : List UInt8) :
    append? f buffer = some (append f buffer) := Payload.append?_eq hf _

end SampleCast.Message

namespace SampleCast.Payload

variable {bytes : List UInt8}

/-- Payloads and well-shaped frames are one to one. Whatever the bytes are, they are read without an
overflow and within the array, and a payload is written behind what is there. -/
theorem codec_bijective (h : bytes.length < memory) :
    decode? bytes = some (decode bytes) ∧
    (∀ f, decode bytes = .ok f ↔ f.WellShaped ∧ bytes = encode f) ∧
    ((∃ flaw, decode bytes = .error flaw) ↔ ∀ f : Frame, f.WellShaped → bytes ≠ encode f) ∧
    ∀ f : Frame, f.WellShaped → decode (encode f) = .ok f ∧ ∀ buffer,
      append? f buffer = some (append f buffer) ∧ append f buffer = buffer ++ encode f ∧
      Message.append? f buffer = some (Message.append f buffer) ∧
      Message.append f buffer = buffer ++ Message.encode f := by
  refine ⟨decode?_eq h, fun f => decode_eq_ok_iff, ?_, ?_⟩
  · constructor
    · rintro ⟨flaw, hflaw⟩ f hf rfl
      rw [decode_encode hf] at hflaw
      cases hflaw
    · intro hnone
      cases hd : decode bytes with
      | error flaw => exact ⟨flaw, rfl⟩
      | ok f =>
        obtain ⟨hf, hbytes⟩ := decode_eq_ok_iff.mp hd
        exact absurd hbytes (hnone f hf)
  · intro f hf
    refine ⟨decode_encode hf, fun buffer => ⟨append?_eq hf buffer, rfl, ?_⟩⟩
    exact ⟨Message.append?_eq hf buffer, Message.append_eq f buffer⟩

def signaling : Frame := ⟨1, 1, 1, [0x7ff0000000000001], [true]⟩

theorem codec_bijective_signaling :
    (encode signaling).length < memory ∧ decode? (encode signaling) = some (.ok signaling) := by
  have hlen : (encode signaling).length < memory := by decide
  obtain ⟨hplace, hiff, -, -⟩ := codec_bijective hlen
  have hdecode : decode (encode signaling) = .ok signaling :=
    (hiff signaling).mpr ⟨by decide, rfl⟩
  exact ⟨hlen, hplace.trans (congrArg some hdecode)⟩

end SampleCast.Payload
