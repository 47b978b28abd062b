import SampleCast.Proofs.Stream.Writer
import SampleCast.Proofs.Wire.Request

/-! Opening a subscription, byte for byte.
The two messages that open a subscription stand in front of other bytes: the request in front of
nothing that the server expects, the reply in front of the data messages. So each has to be read to
its last byte and no further. Main statement: `opening_exact`, on all streams that are read and all
peers that are written to. -/

namespace SampleCast

open Reading (Carries bytes)

namespace Reply

variable {r : Reply} {s rest : List Reading} {more : List UInt8}

theorem encode_eq (r : Reply) :
    r.encode = Marker.welcome.bytes ++ BigEndian.encode 4 r.rate.toNat := by
  simp [encode, parts]

theorem read_encode (hc : Carries s (r.encode ++ more)) :
    ∃ rest, Reply.read s = (.ok r, rest) ∧ Carries rest more := by
  rw [encode_eq, List.append_assoc] at hc
  obtain ⟨s₁, hmarker, hc⟩ := hc.exactly rfl
  obtain ⟨s₂, hrate, hc⟩ := hc.exactly (BigEndian.length_encode 4 r.rate.toNat)
  have hdecode : BigEndian.decode (BigEndian.encode 4 r.rate.toNat) = r.rate.toNat :=
    BigEndian.decode_encode_of_lt r.rate.toNat_lt
  refine ⟨s₂, ?_, hc⟩
  simp only [Reply.read, hmarker, ne_eq, not_true_eq_false, if_false, hrate, hdecode,
    UInt32.ofNat_toNat]

theorem eq_encode_of_read (h : Reply.read s = (.ok r, rest)) :
    bytes s = r.encode ++ bytes rest := by
  unfold Reply.read at h
  rcases hmarker : Reading.exactly Marker.welcome.bytes.length s with ⟨_ | marker, s₁⟩
  · simp [hmarker] at h
  · simp only [hmarker] at h
    split_ifs at h with hw
    · cases h
    · rcases hrate : Reading.exactly 4 s₁ with ⟨_ | word, s₂⟩
      · simp [hrate] at h
      · simp only [hrate] at h
        cases h
        have hlen := Reading.length_of_exactly hrate
        have hlt := BigEndian.decode_lt word
        rw [hlen] at hlt
        rw [encode_eq, UInt32.toNat_ofNat_of_lt' hlt, BigEndian.encode_decode_of_length hlen,
          Reading.bytes_of_exactly hmarker, Reading.bytes_of_exactly hrate, Decidable.not_not.mp hw,
          List.append_assoc]

end Reply

/-- What is written is read back and nothing else is, and neither side goes a byte too far. -/
theorem opening_exact (limit : UInt32) :
    (∀ (r : Request) (s : List Reading) (more : List UInt8),
      0 < r.channels.length → r.channels.length ≤ limit.toNat → Carries s (r.encode ++ more) →
        ∃ rest, Request.read limit s = (.ok r, rest) ∧ Carries rest more) ∧
    (∀ (r : Request) (s rest : List Reading), Request.read limit s = (.ok r, rest) →
      bytes s = r.encode ++ bytes rest ∧ 0 < r.channels.length ∧
        r.channels.length ≤ limit.toNat) ∧
    (∀ (s : List Reading) (word more : List UInt8), word.length = 4 → Carries s (word ++ more) →
      (BigEndian.decode word = 0 ∨ limit.toNat < BigEndian.decode word →
        ∃ rest, Request.read limit s = (.error (.refused (if BigEndian.decode word = 0
          then .noChannels else .tooMany (BigEndian.decode word) limit.toNat)), rest) ∧
          Carries rest more) ∧
      (0 < BigEndian.decode word → BigEndian.decode word ≤ limit.toNat →
        more.length < 4 * BigEndian.decode word →
          Request.read limit s = (.error (.io .shortRead), []))) ∧
    (∀ (s : List Reading) (word : List UInt8), word.length < 4 → Carries s word →
      Request.read limit s = (.error (.io .shortRead), [])) ∧
    (∀ (r : Reply) (s : List Reading) (more : List UInt8), Carries s (r.encode ++ more) →
      ∃ rest, Reply.read s = (.ok r, rest) ∧ Carries rest more) ∧
    (∀ (r : Reply) (s rest : List Reading), Reply.read s = (.ok r, rest) →
      bytes s = r.encode ++ bytes rest) ∧
    (∀ (r : Request) (peer : List Acceptance),
      ((r.write peer).fault = none → (r.write peer).taken = r.encode) ∧
      ∀ f, (r.write peer).fault = some f →
        (r.write peer).taken <+: r.encode ∧ (r.write peer).taken ≠ r.encode) ∧
    ∀ (r : Reply) (peer : List Acceptance),
      ((r.write peer).fault = none → (r.write peer).taken = r.encode) ∧
      ∀ f, (r.write peer).fault = some f →
        (r.write peer).taken <+: r.encode ∧ (r.write peer).taken ≠ r.encode := by
  refine ⟨?_, ?_, ?_, ?_, ?_, ?_, ?_, ?_⟩
  · intro r s more hpos hle hs
    exact Request.read_encode hpos hle hs
  · intro r s rest h
    exact Request.eq_encode_of_read h
  · intro s word more hw hs
    exact ⟨fun hcount => Request.read_refused hw hs hcount,
      fun hpos hle hlt => Request.read_cut hw hpos hle hlt hs⟩
  · intro s word hlt hs
    exact Request.read_short hlt hs
  · intro r s more hs
    exact Reply.read_encode hs
  · intro r s rest h
    exact Reply.eq_encode_of_read h
  · intro r peer
    have h := writeAll_conveys r.encode peer
    exact ⟨h.taken_eq, fun f hf => h.taken_prefix hf⟩
  · intro r peer
    have h := writeEach_conveys r.parts peer
    exact ⟨h.taken_eq, fun f hf => h.taken_prefix hf⟩

def split : List Reading :=
  [.chunk [0, 0], .fault ⟨.interrupted, "signal"⟩, .chunk [0, 2, 0, 0, 0, 7, 0, 0],
    .chunk [0, 7, 5]]

theorem carries_split : Carries split (Request.encode ⟨[7, 7]⟩ ++ [5]) :=
  ⟨by simp [split, Reading.IsSteady, Fault.isRetried], by decide⟩

theorem opening_exact_split :
    (∃ rest, Request.read 2 split = (.ok ⟨[7, 7]⟩, rest) ∧ Carries rest [5]) ∧
    bytes split = Request.encode ⟨[7, 7]⟩ ++ [5] ∧
    (∃ rest, Request.read 1 split = (.error (.refused (.tooMany 2 1)), rest) ∧
      Carries rest [0, 0, 0, 7, 0, 0, 0, 7, 5]) ∧
    ∃ f, (Reply.write ⟨1000⟩ [.upTo 17, .fault ⟨.interrupted, "signal"⟩, .upTo 0]).fault = some f ∧
      (Reply.write ⟨1000⟩ [.upTo 17, .fault ⟨.interrupted, "signal"⟩, .upTo 0]).taken <+:
        Reply.encode ⟨1000⟩ := by
  obtain ⟨hread, -⟩ := opening_exact 2
  obtain ⟨-, -, hcount, -, -, -, -, hwrite⟩ := opening_exact 1
  have hs : Carries split ([0, 0, 0, 2] ++ [0, 0, 0, 7, 0, 0, 0, 7, 5]) := carries_split
  have hdecode : BigEndian.decode [0, 0, 0, 2] = 2 := by decide
  have hrefused := (hcount split [0, 0, 0, 2] _ rfl hs).1 (.inr (by decide))
  rw [hdecode, if_neg (by decide)] at hrefused
  refine ⟨hread ⟨[7, 7]⟩ split [5] (by decide) (by decide) carries_split, carries_split.bytes,
    hrefused, .shortWrite, by decide, ?_⟩
  exact ((hwrite ⟨1000⟩ _).2 .shortWrite (by decide)).1

end SampleCast
