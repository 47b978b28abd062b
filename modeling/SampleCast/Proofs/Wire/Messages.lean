import SampleCast.Proofs.Wire.Decoder

/-! Streams of messages.
A decoder is put in front of a stream and read again and again. Where the stream carries messages it
answers their frames in order, and where it was cut off it answers the frames of the whole messages
and then no further frame. The other way round, a frame is only ever answered for the very bytes of
its message. Main statement: `reads_exactly_messages`. -/

namespace SampleCast

namespace Decoder

open Reading

def results (d : Decoder) (n : Nat) (s : List Reading) : List (Except WireError (Option Frame)) :=
  (readEach n d s).map Step.result

variable {d : Decoder} {f : Frame} {frames : List Frame} {s : List Reading}
  {content tail : List UInt8}

theorem results_succ (d : Decoder) (n : Nat) (s : List Reading) :
    d.results (n + 1) s = (d.read s).result :: (d.read s).decoder.results n (d.read s).rest := rfl

theorem results_end (n : Nat) (hc : Carries s []) :
    d.results n s = List.replicate n (.ok none) := by
  induction n generalizing s with
  | zero => rfl
  | succ n ih =>
    have hend : Carries [] [] := ⟨by simp, rfl⟩
    rw [results_succ, read_end hc, ih hend, List.replicate_succ]

theorem results_cut (hf : d.Admits f) (hb : Message.Begins f tail) (hc : Carries s tail) :
    ∃ fault, fault.kind = .unexpectedEnd ∧
      ∀ n, d.results (n + 1) s = .error (.io fault) :: List.replicate n (.ok none) := by
  obtain ⟨fault, hresult, hkind, hrest⟩ := read_cut hf hb hc
  have hend : Carries [] [] := ⟨by simp, rfl⟩
  refine ⟨fault, hkind, fun n => ?_⟩
  rw [results_succ, hresult, hrest, results_end n hend]

theorem results_messages (hf : ∀ f ∈ frames, d.Admits f)
    (hc : Carries s (frames.flatMap Message.encode ++ tail)) :
    ∃ (d' : Decoder) (rest : List Reading), d'.limit = d.limit ∧ Carries rest tail ∧
      ∀ n, d.results (frames.length + n) s = frames.map (.ok ∘ some) ++ d'.results n rest := by
  -- The decoder changes from message to message, but its limit stays.
  induction frames generalizing d s with
  | nil => exact ⟨d, s, rfl, hc, by simp⟩
  | cons f frames ih =>
    rw [List.flatMap_cons, List.append_assoc] at hc
    obtain ⟨d₁, s₁, hread, hlimit, hc⟩ := read_message (hf f (List.mem_cons_self ..)) hc
    have hmore : ∀ g ∈ frames, d₁.Admits g := by
      intro g hg
      exact (hf g (List.mem_cons_of_mem _ hg)).of_limit hlimit
    obtain ⟨d', rest, hlimit', hc, hresults⟩ := ih hmore hc
    refine ⟨d', rest, hlimit'.trans hlimit, hc, fun n => ?_⟩
    rw [List.length_cons, Nat.add_right_comm, results_succ, hread, hresults]
    rfl

theorem results_of_prefix (hf : ∀ f ∈ frames, d.Admits f)
    (hp : content <+: frames.flatMap Message.encode) (hc : Carries s content) :
    ∃ n tail last, n ≤ frames.length ∧
      content = (frames.take n).flatMap Message.encode ++ tail ∧
      (∀ more, d.results (n + 1 + more) s =
        (frames.take n).map (.ok ∘ some) ++ last :: List.replicate more (.ok none)) ∧
      (tail = [] ∧ last = .ok none ∨
        ∃ f fault, frames[n]? = some f ∧ Message.Begins f tail ∧
          last = .error (.io fault) ∧ fault.kind = .unexpectedEnd) := by
  obtain ⟨n, tail, hn, rfl, htail⟩ := Message.exists_messages hp
  have hlen : (frames.take n).length = n := by rw [List.length_take, Nat.min_eq_left hn]
  obtain ⟨d', rest, hlimit, hrest, hresults⟩ :=
    results_messages (fun f hf' => hf f (List.mem_of_mem_take hf')) hc
  rw [hlen] at hresults
  rcases htail with rfl | ⟨f, hnext, hb⟩
  · refine ⟨n, [], .ok none, hn, rfl, fun more => ?_, .inl ⟨rfl, rfl⟩⟩
    rw [Nat.add_assoc, hresults, results_end _ hrest, Nat.add_comm 1, List.replicate_succ]
  · have hnext' := (hf f (List.mem_of_getElem? hnext)).of_limit hlimit
    obtain ⟨fault, hkind, hcut⟩ := results_cut hnext' hb hrest
    refine ⟨n, tail, .error (.io fault), hn, rfl, fun more => ?_,
      .inr ⟨f, fault, hnext, hb, rfl, hkind⟩⟩
    rw [Nat.add_assoc, hresults, Nat.add_comm 1, hcut]

theorem eq_payload_of_readPayload {size : Nat}
    (h : (d.readPayload size s).result = .ok (some f)) :
    f.WellShaped ∧ size = Payload.size f ∧
      bytes s = Payload.encode f ++ bytes (d.readPayload size s).rest := by
  cases hread : exactly size s with
  | mk result rest =>
    cases result with
    | error fault => simp [readPayload, hread] at h
    | ok payload =>
      cases hdecode : Payload.decode payload with
      | error flaw => simp [readPayload, hread, hdecode] at h
      | ok g =>
        simp only [readPayload, hread, hdecode, Except.ok.injEq, Option.some.injEq] at h ⊢
        subst h
        obtain ⟨hf, rfl⟩ := Payload.eq_encode_of_decode hdecode
        have hsize : size = Payload.size g := by
          rw [← length_of_exactly hread, Payload.length_encode hf]
        exact ⟨hf, hsize, bytes_of_exactly hread⟩

theorem eq_sized_of_readSized (h : (d.readSized s).result = .ok (some f)) :
    d.Admits f ∧
      bytes s = Message.lengthBytes f ++ Payload.encode f ++ bytes (d.readSized s).rest := by
  cases hread : exactly 4 s with
  | mk result rest =>
    cases result with
    | error fault => simp [readSized, hread] at h
    | ok word =>
      by_cases hlimit : d.limit < BigEndian.decode word
      · simp [readSized, hread, hlimit] at h
      · simp only [readSized, hread, hlimit, if_false] at h ⊢
        obtain ⟨hf, hsize, hbytes⟩ := eq_payload_of_readPayload h
        have hlen : word.length = 4 := length_of_exactly hread
        have hlt := BigEndian.decode_lt word
        rw [hlen] at hlt
        have hword : Message.lengthBytes f = word := by
          rw [Message.lengthBytes, ← hsize, BigEndian.encode_decode_of_length hlen]
        refine ⟨⟨hf, hsize ▸ Nat.not_lt.mp hlimit, hsize ▸ hlt⟩, ?_⟩
        rw [bytes_of_exactly hread, hbytes, hword, List.append_assoc]

theorem eq_message_of_read (h : (d.read s).result = .ok (some f)) :
    d.Admits f ∧ bytes s = Message.encode f ++ bytes (d.read s).rest := by
  cases hread : exactlyOrEnd Marker.data.bytes.length s with
  | mk result rest =>
    cases result with
    | error fault => simp [read, hread] at h
    | ok found =>
      cases found with
      | none => simp [read, hread] at h
      | some marker =>
        by_cases hmarker : marker = Marker.data.bytes
        · simp only [read, hread, hmarker, ne_eq, not_true_eq_false, if_false] at h ⊢
          obtain ⟨hf, hbytes⟩ := eq_sized_of_readSized h
          refine ⟨hf, ?_⟩
          rw [bytes_of_exactlyOrEnd hread, hbytes, hmarker, Message.encode]
          simp only [List.append_assoc]
        · simp [read, hread, hmarker] at h

theorem read_eq_iff (hf : f.WellShaped) (hlimit : Payload.size f ≤ d.limit)
    (hc : Carries s (Message.encode f ++ tail)) :
    (d.read s).result = .ok (some f) ↔ Payload.size f < UInt32.size := by
  constructor
  · intro h
    exact (eq_message_of_read h).1.word
  · intro hword
    obtain ⟨d', rest, hread, -⟩ := read_message ⟨hf, hlimit, hword⟩ hc
    rw [hread]

/-- From a stream that carries messages, or was cut off within them, a decoder reads the frames of
the whole messages and no others. From any stream at all, it reads a frame for the bytes of its
message only. -/
theorem reads_exactly_messages (d : Decoder) (s : List Reading) :
    (∀ frames : List Frame, (∀ f ∈ frames, d.Admits f) →
      (Carries s (frames.flatMap Message.encode) → ∀ more,
        d.results (frames.length + more) s =
          frames.map (.ok ∘ some) ++ List.replicate more (.ok none)) ∧
      ∀ content, content <+: frames.flatMap Message.encode → Carries s content →
        ∃ n tail last, n ≤ frames.length ∧
          content = (frames.take n).flatMap Message.encode ++ tail ∧
          (∀ more, d.results (n + 1 + more) s =
            (frames.take n).map (.ok ∘ some) ++ last :: List.replicate more (.ok none)) ∧
          (tail = [] ∧ last = .ok none ∨
            ∃ f fault, frames[n]? = some f ∧ Message.Begins f tail ∧
              last = .error (.io fault) ∧ fault.kind = .unexpectedEnd)) ∧
    ∀ f, (d.read s).result = .ok (some f) →
      d.Admits f ∧ bytes s = Message.encode f ++ bytes (d.read s).rest := by
  refine ⟨fun frames hf => ⟨fun hc => ?_, fun content hp hc => results_of_prefix hf hp hc⟩,
    fun f => eq_message_of_read⟩
  rw [← List.append_nil (frames.flatMap Message.encode)] at hc
  obtain ⟨d', rest, -, hrest, hresults⟩ := results_messages hf hc
  intro more
  rw [hresults, results_end more hrest]

def drip (bytes : List UInt8) : List Reading := (bytes.map fun b => [b]).map .chunk

theorem carries_drip (bytes : List UInt8) : Carries (drip bytes) bytes := by
  have hone : ∀ c ∈ bytes.map (fun b => [b]), c ≠ [] := by simp
  have hflat : (bytes.map fun b => [b]).flatten = bytes := by
    rw [← List.flatMap_def, List.flatMap_singleton']
  have hc := carries_chunks hone
  rwa [hflat] at hc

def couple : Frame := ⟨7, 2, 1, [0, 0x3ff0000000000000], [false, true]⟩

theorem reads_exactly_messages_drip :
    (ofLimit 34).Admits couple ∧
    (ofLimit 34).results 2 (drip (Message.encode couple)) = [.ok (some couple), .ok none] ∧
    bytes (drip (Message.encode couple)) = Message.encode couple ++
      bytes ((ofLimit 34).read (drip (Message.encode couple))).rest ∧
    ∃ fault, fault.kind = .unexpectedEnd ∧
      (ofLimit 34).results 2 (drip ((Message.encode couple).take 30)) =
        [.error (.io fault), .ok none] := by
  have hadmits : (ofLimit 34).Admits couple := ⟨by decide, by decide, by decide⟩
  have hall : ∀ f ∈ [couple], (ofLimit 34).Admits f := by simpa using hadmits
  have hwhole : [couple].flatMap Message.encode = Message.encode couple := by simp
  obtain ⟨hframes, hbytes⟩ :=
    reads_exactly_messages (ofLimit 34) (drip (Message.encode couple))
  have hresults := (hframes [couple] hall).1 (hwhole ▸ carries_drip _) 1
  have hread : ((ofLimit 34).read (drip (Message.encode couple))).result = .ok (some couple) :=
    (List.cons.inj hresults).1
  refine ⟨hadmits, hresults, (hbytes couple hread).2, ?_⟩
  obtain ⟨n, tail, last, hn, hcontent, hcut, hlast⟩ :=
    ((reads_exactly_messages (ofLimit 34) (drip ((Message.encode couple).take 30))).1
      [couple] hall).2 _ (hwhole ▸ List.take_prefix 30 _) (carries_drip _)
  have hlen := congrArg List.length hcontent
  cases n with
  | zero =>
    rcases hlast with ⟨rfl, -⟩ | ⟨f, fault, -, -, rfl, hkind⟩
    · exact absurd hlen (by decide)
    · exact ⟨fault, hkind, hcut 1⟩
  | succ n =>
    have hone : n = 0 := by
      rw [List.length_singleton] at hn
      omega
    have hshort : ((Message.encode couple).take 30).length = 30 := by decide
    have hlong : (([couple].take 1).flatMap Message.encode).length = 59 := by decide
    rw [hone, List.length_append, hshort, hlong] at hlen
    omega

end Decoder
end SampleCast
