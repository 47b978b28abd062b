import Mathlib.Data.List.Basic
import SampleCast.Proofs.Stream.Reader
import SampleCast.Proofs.Wire.Payload
import SampleCast.Wire.Decoder

/-! Reading messages off a stream.
From a stream that carries a whole message a decoder reads its frame and leaves the rest; from the
beginning of a message it reads nothing, and answers that the stream has ended too early. Main
statements: `read_message`, `read_end` and `read_cut`, and `exists_messages`, that every prefix of a
list of messages is some of them, whole, and then at most the beginning of the next. -/

namespace SampleCast

theorem exists_of_prefix_append {α : Type} {a x y : List α} (h : a <+: x ++ y)
    (hx : x.length ≤ a.length) : ∃ z, a = x ++ z ∧ z <+: y := by
  obtain ⟨z, rfl⟩ := List.prefix_of_prefix_length_le (List.prefix_append x y) h hx
  exact ⟨z, rfl, (List.prefix_append_right_inj x).mp h⟩

namespace Message

theorem decode_lengthBytes (f : Frame) :
    BigEndian.decode (lengthBytes f) = Payload.size f % UInt32.size :=
  BigEndian.decode_encode 4 (Payload.size f)

/-- The beginning of a message, which stops inside it. -/
structure Begins (f : Frame) (bytes : List UInt8) : Prop where
  ne_nil : bytes ≠ []
  starts : bytes <+: encode f
  lt : bytes.length < (encode f).length

theorem exists_messages {frames : List Frame} {bytes : List UInt8}
    (h : bytes <+: frames.flatMap encode) :
    ∃ n tail, n ≤ frames.length ∧ bytes = (frames.take n).flatMap encode ++ tail ∧
      (tail = [] ∨ ∃ f, frames[n]? = some f ∧ Begins f tail) := by
  induction frames generalizing bytes with
  | nil => exact ⟨0, [], Nat.le_refl _, List.prefix_nil.mp h, .inl rfl⟩
  | cons f frames ih =>
    rw [List.flatMap_cons] at h
    by_cases hlen : (encode f).length ≤ bytes.length
    · obtain ⟨rest, rfl, hrest⟩ := exists_of_prefix_append h hlen
      obtain ⟨n, tail, hn, rfl, htail⟩ := ih hrest
      exact ⟨n + 1, tail, Nat.succ_le_succ hn, by simp, by simpa using htail⟩
    · have hpre : bytes <+: encode f :=
        List.prefix_of_prefix_length_le h (List.prefix_append _ _) (by omega)
      refine ⟨0, bytes, Nat.zero_le _, by simp, ?_⟩
      by_cases hb : bytes = []
      · exact .inl hb
      · exact .inr ⟨f, by simp, hb, hpre, by omega⟩

end Message

namespace Decoder

open Reading

structure Admits (d : Decoder) (f : Frame) : Prop where
  wellShaped : f.WellShaped
  limit : Payload.size f ≤ d.limit
  word : Payload.size f < UInt32.size

theorem Admits.of_limit {d d' : Decoder} {f : Frame} (h : d.Admits f) (hl : d'.limit = d.limit) :
    d'.Admits f :=
  ⟨h.wellShaped, hl ▸ h.limit, h.word⟩

theorem Admits.size_mod {d : Decoder} {f : Frame} (h : d.Admits f) :
    Payload.size f % UInt32.size = Payload.size f := Nat.mod_eq_of_lt h.word

variable {d : Decoder} {f : Frame} {s : List Reading} {more bytes : List UInt8}

theorem read_marker (hc : Carries s (Marker.data.bytes ++ more)) :
    ∃ rest, d.read s = d.readSized rest ∧ Carries rest more := by
  obtain ⟨rest, hmarker, hrest⟩ := hc.exactlyOrEnd rfl
  exact ⟨rest, by simp only [read, hmarker, ne_eq, not_true_eq_false, if_false], hrest⟩

theorem readSized_length (hlimit : Payload.size f % UInt32.size ≤ d.limit)
    (hc : Carries s (Message.lengthBytes f ++ more)) :
    ∃ rest, d.readSized s = d.readPayload (Payload.size f % UInt32.size) rest ∧
      Carries rest more := by
  obtain ⟨rest, hlength, hrest⟩ := hc.exactly (BigEndian.length_encode 4 (Payload.size f))
  refine ⟨rest, ?_, hrest⟩
  simp only [readSized, hlength, Message.decode_lengthBytes, Nat.not_lt.mpr hlimit, if_false]

theorem read_message (hf : d.Admits f) (hc : Carries s (Message.encode f ++ more)) :
    ∃ d' rest, d.read s = ⟨.ok (some f), d', rest⟩ ∧ d'.limit = d.limit ∧ Carries rest more := by
  rw [Message.encode, List.append_assoc, List.append_assoc] at hc
  obtain ⟨s₁, hread, hc⟩ := read_marker hc
  obtain ⟨s₂, hsized, hc⟩ := readSized_length (hf.size_mod.symm ▸ hf.limit) hc
  obtain ⟨s₃, hpayload, hc⟩ := hc.exactly (Payload.length_encode hf.wellShaped)
  rw [hread, hsized, hf.size_mod]
  simp only [readPayload, hpayload, Payload.decode_encode hf.wellShaped]
  exact ⟨_, _, rfl, rfl, hc⟩

/-- A payload that is too long for its size to fit is taken for a part of itself, and refused. -/
theorem read_oversized (hf : f.WellShaped) (hlimit : Payload.size f % UInt32.size ≤ d.limit)
    (hword : UInt32.size ≤ Payload.size f) (hc : Carries s (Message.encode f ++ more)) :
    (d.read s).result = .error (.malformed (if Payload.size f % UInt32.size < Payload.headerSize
      then .shorterThanHeader (Payload.size f % UInt32.size)
      else .misfit f.channelCount.toNat f.pointsPerChannel.toNat
        (Payload.size f % UInt32.size))) := by
  have hlt : Payload.size f % UInt32.size < Payload.size f :=
    Nat.lt_of_lt_of_le (Nat.mod_lt _ (by decide)) hword
  have hlen : ((Payload.encode f).take (Payload.size f % UInt32.size)).length =
      Payload.size f % UInt32.size := by
    rw [List.length_take, Payload.length_encode hf, Nat.min_eq_left (Nat.le_of_lt hlt)]
  rw [Message.encode, List.append_assoc, List.append_assoc] at hc
  obtain ⟨s₁, hread, hc⟩ := read_marker (d := d) hc
  obtain ⟨s₂, hsized, hc⟩ := readSized_length hlimit hc
  rw [← List.take_append_drop (Payload.size f % UInt32.size) (Payload.encode f),
    List.append_assoc] at hc
  obtain ⟨s₃, hpayload, -⟩ := hc.exactly hlen
  rw [hread, hsized]
  simp only [readPayload, hpayload, Payload.decode_take hf hlt]

theorem read_end (hc : Carries s []) : d.read s = ⟨.ok none, d, []⟩ := by
  have hmarker : 0 < Marker.data.bytes.length := by decide
  simp only [read, hc.exactlyOrEnd_nil hmarker]

theorem readSized_cut (hf : d.Admits f)
    (hpre : bytes <+: Message.lengthBytes f ++ Payload.encode f)
    (hlt : bytes.length < 4 + Payload.size f) (hc : Carries s bytes) :
    (d.readSized s).result = .error (.io .shortRead) ∧ (d.readSized s).rest = [] := by
  have hlen : (Message.lengthBytes f).length = 4 := BigEndian.length_encode ..
  by_cases hl : (Message.lengthBytes f).length ≤ bytes.length
  · obtain ⟨payload, rfl, -⟩ := exists_of_prefix_append hpre hl
    obtain ⟨s₁, hsized, hc⟩ := readSized_length (hf.size_mod.symm ▸ hf.limit) hc
    have hshort : payload.length < Payload.size f := by
      rw [List.length_append, hlen] at hlt
      omega
    rw [hsized, hf.size_mod]
    simp only [readPayload, hc.exactly_short hshort, and_self]
  · have hshort : bytes.length < 4 := by omega
    simp only [readSized, hc.exactly_short hshort, and_self]

theorem read_cut (hf : d.Admits f) (hb : Message.Begins f bytes) (hc : Carries s bytes) :
    ∃ fault, (d.read s).result = .error (.io fault) ∧ fault.kind = .unexpectedEnd ∧
      (d.read s).rest = [] := by
  obtain ⟨hne, hpre, hlt⟩ := hb
  rw [Message.encode, List.append_assoc] at hpre hlt
  by_cases hmarker : Marker.data.bytes.length ≤ bytes.length
  · obtain ⟨sized, rfl, hsized⟩ := exists_of_prefix_append hpre hmarker
    obtain ⟨s₁, hread, hc⟩ := read_marker (d := d) hc
    have hshort : sized.length < 4 + Payload.size f := by
      rw [← Payload.length_encode hf.wellShaped]
      simpa [Message.lengthBytes] using hlt
    obtain ⟨hresult, hrest⟩ := readSized_cut hf hsized hshort hc
    rw [hread]
    exact ⟨_, hresult, rfl, hrest⟩
  · simp only [read, hc.exactlyOrEnd_short hne (Nat.not_le.mp hmarker)]
    exact ⟨_, rfl, rfl, trivial⟩

end Decoder
end SampleCast
