import SampleCast.Wire.Payload

/-! Payloads and frames.
The payload of a frame that fills its stated shape is read back as it was, and is as long as its
size says. Bytes that can be read are the payload of what was read, so that no two byte strings
stand for one frame. The proofs follow the blocks, channel by channel. Main statement:
`decode_eq_ok_iff`. -/

namespace SampleCast.Payload

variable {points k channel : Nat} {analog : List Level} {digital bs : List Bool}
  {bytes : List UInt8} {f : Frame}

theorem length_levelBytes (xs : List Level) : (levelBytes xs).length = xs.length * 8 := by
  induction xs with
  | nil => rfl
  | cons x xs ih =>
    change (BigEndian.encode 8 x.toNat ++ levelBytes xs).length = (xs.length + 1) * 8
    rw [List.length_append, BigEndian.length_encode, ih]
    omega

theorem length_bitBytes (bs : List Bool) : (bitBytes bs).length = bs.length := by
  rw [bitBytes, List.length_map]

theorem levels_append {word : List UInt8} (hw : word.length = 8) (rest : List UInt8) :
    levels (word ++ rest) = UInt64.ofNat (BigEndian.decode word) :: levels rest := by
  match word, hw with
  | [a, b, c, d, e, f, g, h], _ => rfl

theorem levels_levelBytes (xs : List Level) : levels (levelBytes xs) = xs := by
  induction xs with
  | nil => rfl
  | cons x xs ih =>
    change levels (BigEndian.encode 8 x.toNat ++ levelBytes xs) = x :: xs
    rw [levels_append (BigEndian.length_encode ..), BigEndian.decode_encode_of_lt x.toNat_lt, ih,
      UInt64.ofNat_toNat]

theorem bits_bitBytes (channel : Nat) (bs : List Bool) :
    bits channel (bitBytes bs) = .ok bs := by
  induction bs with
  | nil => rfl
  | cons b bs ih =>
    change bits channel ((if b then 1 else 0) :: bitBytes bs) = _
    cases b with
    | false => simp [bits, ih, Except.map]
    | true => simp [bits, ih, Except.map]

/-- The channels that are left are written one by one, even where they have no points. -/
theorem blocks_succ (ha : analog.length = (k + 1) * points)
    (hd : digital.length = (k + 1) * points) :
    blocks points (k + 1) analog digital =
      levelBytes (analog.take points) ++ bitBytes (digital.take points) ++
        blocks points k (analog.drop points) (digital.drop points) := by
  cases analog with
  | nil =>
    have hd' : digital = [] := List.length_eq_zero_iff.mp (hd.trans ha.symm)
    subst hd'
    cases k with
    | zero => simp [blocks, levelBytes, bitBytes]
    | succ k => simp [blocks, levelBytes, bitBytes]
  | cons x xs =>
    rw [blocks]
    simp

theorem length_blocks (ha : analog.length = k * points) (hd : digital.length = k * points) :
    (blocks points k analog digital).length = k * points * bytesPerPoint := by
  induction k generalizing analog digital with
  | zero => simp [blocks]
  | succ k ih =>
    have hk : (k + 1) * points = k * points + points := Nat.succ_mul k points
    have hrest : (analog.drop points).length = k * points := by
      rw [List.length_drop]
      omega
    have hrest' : (digital.drop points).length = k * points := by
      rw [List.length_drop]
      omega
    rw [blocks_succ ha hd, List.length_append, List.length_append, length_levelBytes,
      length_bitBytes, ih hrest hrest', List.length_take, List.length_take, bytesPerPoint]
    omega

theorem samples_succ (h : bytes.length = (k + 1) * points * bytesPerPoint) :
    samples points (k + 1) channel bytes =
      match bits channel ((bytes.drop (points * 8)).take points) with
      | .error e => .error e
      | .ok digital =>
        match samples points k (channel + 1) (bytes.drop (points * bytesPerPoint)) with
        | .error e => .error e
        | .ok (moreAnalog, moreDigital) =>
          .ok (levels (bytes.take (points * 8)) ++ moreAnalog, digital ++ moreDigital) := by
  cases bytes with
  | nil => cases k <;> simp [samples, bits, levels]
  | cons b bytes => rfl

theorem samples_blocks (channel : Nat) (ha : analog.length = k * points)
    (hd : digital.length = k * points) :
    samples points k channel (blocks points k analog digital) = .ok (analog, digital) := by
  induction k generalizing channel analog digital with
  | zero =>
    rw [Nat.zero_mul, List.length_eq_zero_iff] at ha hd
    rw [ha, hd]
    rfl
  | succ k ih =>
    have hk : (k + 1) * points = k * points + points := Nat.succ_mul k points
    have hrest : (analog.drop points).length = k * points := by
      rw [List.length_drop]
      omega
    have hrest' : (digital.drop points).length = k * points := by
      rw [List.length_drop]
      omega
    have hwords : (levelBytes (analog.take points)).length = points * 8 := by
      rw [length_levelBytes, List.length_take]
      omega
    have hbytes : (bitBytes (digital.take points)).length = points := by
      rw [length_bitBytes, List.length_take]
      omega
    have hboth : (levelBytes (analog.take points) ++ bitBytes (digital.take points)).length =
        points * bytesPerPoint := by
      rw [List.length_append, hwords, hbytes, bytesPerPoint]
      omega
    rw [samples_succ (length_blocks ha hd), blocks_succ ha hd, List.drop_left' hboth,
      ih (channel + 1) hrest hrest', List.append_assoc, List.drop_left' hwords,
      List.take_left' hbytes, List.take_left' hwords, bits_bitBytes, levels_levelBytes]
    simp only [List.take_append_drop]

theorem size_of_wellShaped (h : f.WellShaped) : size f = headerSize + f.area * bytesPerPoint := by
  rw [size, Frame.sampleCount, h.1]

theorem length_header (f : Frame) : (header f).length = headerSize := by
  simp [header, headerSize]

theorem length_encode (h : f.WellShaped) : (encode f).length = size f := by
  rw [encode, List.length_append, length_header, length_blocks h.1 h.2, size_of_wellShaped h,
    Frame.area]

theorem header_fields (f : Frame) (body : List UInt8) :
    BigEndian.decode ((header f ++ body).take 8) = f.timestamp.toNat ∧
    BigEndian.decode (((header f ++ body).drop 8).take 4) = f.channelCount.toNat ∧
    BigEndian.decode (((header f ++ body).drop 12).take 4) = f.pointsPerChannel.toNat ∧
    (header f ++ body).drop headerSize = body := by
  refine ⟨?_, ?_, ?_, List.drop_left' (length_header f)⟩
  · rw [header, List.append_assoc, List.append_assoc, List.take_left' (BigEndian.length_encode ..)]
    exact BigEndian.decode_encode_of_lt f.timestamp.toNat_lt
  · rw [header, List.append_assoc, List.append_assoc, List.drop_left' (BigEndian.length_encode ..),
      List.take_left' (BigEndian.length_encode ..)]
    exact BigEndian.decode_encode_of_lt f.channelCount.toNat_lt
  · rw [header, List.append_assoc, List.drop_left' (by simp),
      List.take_left' (BigEndian.length_encode ..)]
    exact BigEndian.decode_encode_of_lt f.pointsPerChannel.toNat_lt

theorem decode_header (f : Frame) (body : List UInt8) :
    decode (header f ++ body) =
      if f.area * bytesPerPoint ≠ body.length then
        .error (.misfit f.channelCount.toNat f.pointsPerChannel.toNat (headerSize + body.length))
      else
        match samples f.pointsPerChannel.toNat f.channelCount.toNat 0 body with
        | .error e => .error e
        | .ok (analog, digital) => .ok { f with analog, digital } := by
  obtain ⟨htime, hchannels, hpoints, hbody⟩ := header_fields f body
  have hlen : (header f ++ body).length = headerSize + body.length := by
    rw [List.length_append, length_header]
  rw [decode, if_neg (by omega), htime, hchannels, hpoints, hbody, hlen]
  simp only [ne_eq, Nat.add_left_cancel_iff, UInt64.ofNat_toNat, UInt32.ofNat_toNat, Frame.area]
  rfl

theorem decode_encode (h : f.WellShaped) : decode (encode f) = .ok f := by
  rw [encode, decode_header, length_blocks h.1 h.2, Frame.area, if_neg (not_not_intro rfl),
    samples_blocks 0 h.1 h.2]

theorem decode_take (h : f.WellShaped) {n : Nat} (hn : n < size f) :
    decode ((encode f).take n) = .error (if n < headerSize then .shorterThanHeader n
      else .misfit f.channelCount.toNat f.pointsPerChannel.toNat n) := by
  have hlen : ((encode f).take n).length = n := by
    rw [List.length_take, length_encode h, Nat.min_eq_left (Nat.le_of_lt hn)]
  by_cases hheader : n < headerSize
  · rw [decode, hlen, if_pos hheader, if_pos hheader]
  · have hbody : ((encode f).take n).drop headerSize =
        (blocks f.pointsPerChannel.toNat f.channelCount.toNat f.analog f.digital).take
          (n - headerSize) := by
      rw [encode, List.drop_take, List.drop_left' (length_header f)]
    have hsplit : (encode f).take n = header f ++ ((encode f).take n).drop headerSize := by
      rw [hbody, encode, List.take_append, length_header, List.take_of_length_le]
      rw [length_header]
      omega
    have hrest : (((encode f).take n).drop headerSize).length = n - headerSize := by
      rw [List.length_drop, hlen]
    have hsize := size_of_wellShaped h
    have hall : headerSize + (n - headerSize) = n := by omega
    rw [hsplit, decode_header, hrest, hall, if_pos (by omega), if_neg hheader]

theorem levelBytes_levels {n : Nat} (h : bytes.length = n * 8) :
    levelBytes (levels bytes) = bytes ∧ (levels bytes).length = n := by
  induction n generalizing bytes with
  | zero =>
    rw [Nat.zero_mul, List.length_eq_zero_iff] at h
    subst h
    exact ⟨rfl, rfl⟩
  | succ n ih =>
    have hword : (bytes.take 8).length = 8 := by
      rw [List.length_take]
      omega
    have hrest : (bytes.drop 8).length = n * 8 := by
      rw [List.length_drop]
      omega
    have hlt : BigEndian.decode (bytes.take 8) < UInt64.size := by
      have := BigEndian.decode_lt (bytes.take 8)
      rwa [hword] at this
    obtain ⟨hih, hlen⟩ := ih hrest
    have hlevels : levels bytes =
        UInt64.ofNat (BigEndian.decode (bytes.take 8)) :: levels (bytes.drop 8) := by
      rw [← levels_append hword, List.take_append_drop]
    rw [hlevels]
    constructor
    · change BigEndian.encode 8 (UInt64.ofNat _).toNat ++ levelBytes (levels (bytes.drop 8)) = bytes
      rw [UInt64.toNat_ofNat_of_lt' hlt, BigEndian.encode_decode_of_length hword, hih,
        List.take_append_drop]
    · rw [List.length_cons, hlen]

theorem exists_of_map_cons {r : Except PayloadFlaw (List Bool)} {bit : Bool}
    (h : r.map (bit :: ·) = .ok bs) : ∃ more, r = .ok more ∧ bs = bit :: more := by
  cases r with
  | error e => cases h
  | ok more =>
    cases h
    exact ⟨more, rfl, rfl⟩

theorem eq_bitBytes_of_bits (h : bits channel bytes = .ok bs) : bytes = bitBytes bs := by
  induction bytes generalizing bs with
  | nil =>
    cases h
    rfl
  | cons b bytes ih =>
    rw [bits] at h
    by_cases h0 : b = 0
    · rw [if_pos h0] at h
      obtain ⟨more, hmore, rfl⟩ := exists_of_map_cons h
      rw [h0, ih hmore]
      rfl
    · by_cases h1 : b = 1
      · rw [if_neg h0, if_pos h1] at h
        obtain ⟨more, hmore, rfl⟩ := exists_of_map_cons h
        rw [h1, ih hmore]
        rfl
      · rw [if_neg h0, if_neg h1] at h
        cases h

theorem eq_blocks_of_samples (hlen : bytes.length = k * points * bytesPerPoint)
    (h : samples points k channel bytes = .ok (analog, digital)) :
    analog.length = k * points ∧ digital.length = k * points ∧
      bytes = blocks points k analog digital := by
  induction k generalizing channel bytes analog digital with
  | zero =>
    cases h
    rw [Nat.zero_mul, Nat.zero_mul, List.length_eq_zero_iff] at hlen
    exact ⟨by simp, by simp, hlen⟩
  | succ k ih =>
    have hk : (k + 1) * points = k * points + points := Nat.succ_mul k points
    have hall : bytes.length = k * points * 9 + points * 9 := by
      rw [hlen, hk, bytesPerPoint]
      omega
    rw [samples_succ hlen] at h
    cases hbits : bits channel ((bytes.drop (points * 8)).take points) with
    | error e =>
      rw [hbits] at h
      cases h
    | ok first =>
      cases hmore : samples points k (channel + 1) (bytes.drop (points * bytesPerPoint)) with
      | error e =>
        rw [hbits, hmore] at h
        cases h
      | ok more =>
        obtain ⟨moreAnalog, moreDigital⟩ := more
        rw [hbits, hmore] at h
        cases h
        have hrest : (bytes.drop (points * bytesPerPoint)).length = k * points * bytesPerPoint := by
          rw [List.length_drop, hall, bytesPerPoint]
          omega
        have hwords : (bytes.take (points * 8)).length = points * 8 := by
          rw [List.length_take]
          omega
        obtain ⟨hma, hmd, hblocks⟩ := ih hrest hmore
        obtain ⟨hlevels, hla⟩ := levelBytes_levels hwords
        have hbytes := eq_bitBytes_of_bits hbits
        have hfirst : first.length = points := by
          rw [← length_bitBytes, ← hbytes, List.length_take, List.length_drop]
          omega
        have ha : (levels (bytes.take (points * 8)) ++ moreAnalog).length = (k + 1) * points := by
          rw [List.length_append, hla, hma]
          omega
        have hd : (first ++ moreDigital).length = (k + 1) * points := by
          rw [List.length_append, hfirst, hmd]
          omega
        refine ⟨ha, hd, ?_⟩
        rw [blocks_succ ha hd, List.take_left' hla, List.take_left' hfirst, List.drop_left' hla,
          List.drop_left' hfirst, ← hblocks, hlevels, ← hbytes]
        have hnine : points * bytesPerPoint = points * 8 + points := Nat.mul_succ points 8
        rw [List.append_assoc, hnine, ← List.drop_drop, List.take_append_drop,
          List.take_append_drop]

theorem toNat_word32 {word : List UInt8} (h : word.length = 4) :
    (UInt32.ofNat (BigEndian.decode word)).toNat = BigEndian.decode word := by
  have hlt := BigEndian.decode_lt word
  rw [h] at hlt
  exact UInt32.toNat_ofNat_of_lt' hlt

theorem toNat_word64 {word : List UInt8} (h : word.length = 8) :
    (UInt64.ofNat (BigEndian.decode word)).toNat = BigEndian.decode word := by
  have hlt := BigEndian.decode_lt word
  rw [h] at hlt
  exact UInt64.toNat_ofNat_of_lt' hlt

theorem header_append (bytes : List UInt8) :
    bytes.take 8 ++ (bytes.drop 8).take 4 ++ (bytes.drop 12).take 4 ++ bytes.drop headerSize =
      bytes := by
  have h12 : bytes.drop 12 = (bytes.drop 8).drop 4 := by rw [List.drop_drop]
  have h16 : bytes.drop headerSize = (bytes.drop 12).drop 4 := by rw [List.drop_drop, headerSize]
  rw [h16, List.append_assoc, List.take_append_drop, h12, List.append_assoc,
    List.take_append_drop, List.take_append_drop]

theorem exists_header (h : headerSize ≤ bytes.length) :
    ∃ g body, bytes = header g ++ body := by
  rw [headerSize] at h
  have htime : (bytes.take 8).length = 8 := by
    rw [List.length_take]
    omega
  have hchannels : ((bytes.drop 8).take 4).length = 4 := by
    rw [List.length_take, List.length_drop]
    omega
  have hpoints : ((bytes.drop 12).take 4).length = 4 := by
    rw [List.length_take, List.length_drop]
    omega
  refine ⟨⟨UInt64.ofNat (BigEndian.decode (bytes.take 8)),
    UInt32.ofNat (BigEndian.decode ((bytes.drop 8).take 4)),
    UInt32.ofNat (BigEndian.decode ((bytes.drop 12).take 4)), [], []⟩, bytes.drop headerSize, ?_⟩
  rw [header, toNat_word64 htime, toNat_word32 hchannels, toNat_word32 hpoints,
    BigEndian.encode_decode_of_length htime, BigEndian.encode_decode_of_length hchannels,
    BigEndian.encode_decode_of_length hpoints, header_append]

theorem eq_encode_of_decode (h : decode bytes = .ok f) : f.WellShaped ∧ bytes = encode f := by
  by_cases hheader : bytes.length < headerSize
  · rw [decode, if_pos hheader] at h
    cases h
  · obtain ⟨g, body, rfl⟩ := exists_header (Nat.not_lt.mp hheader)
    rw [decode_header] at h
    by_cases hfit : g.area * bytesPerPoint = body.length
    · rw [if_neg (not_not_intro hfit)] at h
      cases hs : samples g.pointsPerChannel.toNat g.channelCount.toNat 0 body with
      | error e =>
        rw [hs] at h
        cases h
      | ok both =>
        obtain ⟨analog, digital⟩ := both
        rw [hs] at h
        cases h
        obtain ⟨ha, hd, hblocks⟩ := eq_blocks_of_samples hfit.symm hs
        exact ⟨⟨ha, hd⟩, congrArg (header g ++ ·) hblocks⟩
    · rw [if_pos hfit] at h
      cases h

theorem decode_eq_ok_iff : decode bytes = .ok f ↔ f.WellShaped ∧ bytes = encode f :=
  ⟨eq_encode_of_decode, fun h => h.2 ▸ decode_encode h.1⟩

end SampleCast.Payload
