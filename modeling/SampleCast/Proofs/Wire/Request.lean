import Mathlib.Tactic.SplitIfs
import SampleCast.Proofs.Stream.Reader
import SampleCast.Wire.Subscription

/-! Reading requests.
A request is read back from its bytes, whatever follows them, and whatever is read as a request were
its bytes. It asks for at least one channel and for no more than the limit: any other count is
refused before anything behind it is read. One that was found valid asks for channels that the
source has. -/

namespace SampleCast.Request

open Reading (Carries bytes)

variable {limit : UInt32} {r : Request} {s rest : List Reading} {word ids more : List UInt8}

theorem words_append (hw : word.length = 4) (more : List UInt8) :
    words (word ++ more) = UInt32.ofNat (BigEndian.decode word) :: words more := by
  match word, hw with
  | [a, b, c, d], _ => rfl

theorem words_encode (cs : List UInt32) :
    words (cs.flatMap fun c => BigEndian.encode 4 c.toNat) = cs := by
  induction cs with
  | nil => rfl
  | cons c cs ih =>
    rw [List.flatMap_cons, words_append (BigEndian.length_encode ..),
      BigEndian.decode_encode_of_lt c.toNat_lt, ih, UInt32.ofNat_toNat]

theorem encode_words {n : Nat} (h : ids.length = 4 * n) :
    ((words ids).flatMap fun c => BigEndian.encode 4 c.toNat) = ids ∧ (words ids).length = n := by
  induction n generalizing ids with
  | zero =>
    rw [List.length_eq_zero_iff.mp h]
    exact ⟨rfl, rfl⟩
  | succ n ih =>
    have hword : (ids.take 4).length = 4 := by
      rw [List.length_take]
      omega
    have hrest : (ids.drop 4).length = 4 * n := by
      rw [List.length_drop]
      omega
    have hlt : BigEndian.decode (ids.take 4) < UInt32.size := by
      have := BigEndian.decode_lt (ids.take 4)
      rwa [hword] at this
    obtain ⟨hih, hlen⟩ := ih hrest
    rw [← List.take_append_drop 4 ids, words_append hword, List.flatMap_cons, hih,
      UInt32.toNat_ofNat_of_lt' hlt, BigEndian.encode_decode_of_length hword]
    exact ⟨rfl, by simp [hlen]⟩

theorem length_ids (cs : List UInt32) :
    (cs.flatMap fun c => BigEndian.encode 4 c.toNat).length = 4 * cs.length := by
  induction cs with
  | nil => rfl
  | cons c cs ih =>
    simp only [List.flatMap_cons, List.length_append, BigEndian.length_encode, ih,
      List.length_cons]
    omega

theorem read_encode (hpos : 0 < r.channels.length) (hle : r.channels.length ≤ limit.toNat)
    (hs : Carries s (r.encode ++ more)) :
    ∃ rest, read limit s = (.ok r, rest) ∧ Carries rest more := by
  have hlt : r.channels.length < UInt32.size := Nat.lt_of_le_of_lt hle limit.toNat_lt
  have hcount : BigEndian.decode (BigEndian.encode 4 r.channels.length) = r.channels.length :=
    BigEndian.decode_encode_of_lt hlt
  rw [encode, List.append_assoc] at hs
  obtain ⟨s₁, hword, hs⟩ := hs.exactly (BigEndian.length_encode ..)
  obtain ⟨s₂, hids, hs⟩ := hs.exactly (length_ids r.channels)
  refine ⟨s₂, ?_, hs⟩
  simp only [read, hword, hcount, if_neg (Nat.ne_of_gt hpos), if_neg (Nat.not_lt.mpr hle), hids,
    words_encode]

theorem read_refused (hw : word.length = 4) (hs : Carries s (word ++ more))
    (hcount : BigEndian.decode word = 0 ∨ limit.toNat < BigEndian.decode word) :
    ∃ rest, read limit s = (.error (.refused (if BigEndian.decode word = 0 then .noChannels
      else .tooMany (BigEndian.decode word) limit.toNat)), rest) ∧ Carries rest more := by
  obtain ⟨rest, hword, hs⟩ := hs.exactly hw
  refine ⟨rest, ?_, hs⟩
  by_cases h0 : BigEndian.decode word = 0
  · simp only [read, hword, if_pos h0]
  · have hmany : limit.toNat < BigEndian.decode word := hcount.resolve_left h0
    simp only [read, hword, if_neg h0, if_pos hmany]

theorem read_short (hlt : word.length < 4) (hs : Carries s word) :
    read limit s = (.error (.io .shortRead), []) := by
  simp only [read, hs.exactly_short hlt]

theorem read_cut (hw : word.length = 4) (hpos : 0 < BigEndian.decode word)
    (hle : BigEndian.decode word ≤ limit.toNat) (hlt : ids.length < 4 * BigEndian.decode word)
    (hs : Carries s (word ++ ids)) : read limit s = (.error (.io .shortRead), []) := by
  obtain ⟨s₁, hword, hs⟩ := hs.exactly hw
  simp only [read, hword, if_neg (Nat.ne_of_gt hpos), if_neg (Nat.not_lt.mpr hle),
    hs.exactly_short hlt]

theorem eq_encode_of_read (h : read limit s = (.ok r, rest)) :
    bytes s = r.encode ++ bytes rest ∧ 0 < r.channels.length ∧
      r.channels.length ≤ limit.toNat := by
  unfold read at h
  rcases hcount : Reading.exactly 4 s with ⟨_ | word, s₁⟩
  · simp [hcount] at h
  · simp only [hcount] at h
    split_ifs at h with h0 hmany
    · cases h
    · cases h
    · rcases hids : Reading.exactly (4 * BigEndian.decode word) s₁ with ⟨_ | ids, s₂⟩
      · simp [hids] at h
      · simp only [hids] at h
        cases h
        obtain ⟨hencode, hlen⟩ := encode_words (Reading.length_of_exactly hids)
        constructor
        · rw [encode, hlen, hencode,
            BigEndian.encode_decode_of_length (Reading.length_of_exactly hcount),
            Reading.bytes_of_exactly hcount, Reading.bytes_of_exactly hids, List.append_assoc]
        · rw [hlen]
          omega

theorem length_channels_of_read (h : read limit s = (.ok r, rest)) :
    0 < r.channels.length ∧ r.channels.length ≤ limit.toNat := (eq_encode_of_read h).2

theorem validate_eq_ok {available : UInt32} (h : r.validate available = .ok ()) :
    ∀ c ∈ r.channels, c < available := by
  unfold validate at h
  cases hfind : r.channels.find? (available ≤ ·) with
  | some c => simp [hfind] at h
  | none => simpa using hfind

end SampleCast.Request
