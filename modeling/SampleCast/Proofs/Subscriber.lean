import SampleCast.Proofs.Wire.Messages
import SampleCast.Proofs.Wire.Opening
import SampleCast.Subscriber

/-! What a subscriber receives.
A subscriber whose stream carries a reply and then messages learns the rate and reads the frames one
after another. Main statement: `reads_of_prefix`, that from any prefix of the messages it reads the
frames of the whole ones, in order, and nothing else. -/

namespace SampleCast.Subscriber

open Reading

def answers : Nat → Subscriber → List (Except WireError (Option Frame))
  | 0, _ => []
  | n + 1, s => s.read.1 :: answers n s.read.2

structure Takes (s : Subscriber) (f : Frame) : Prop where
  wellShaped : f.WellShaped
  channels : f.channelCount.toNat = s.channels.length
  limit : Payload.size f ≤ s.decoder.limit
  word : Payload.size f < UInt32.size

/-- From a stream that carries `content`, the subscriber reads the frames whose messages are whole,
and then finds the end between two messages, or an end that came too early. -/
def Reads (s : Subscriber) (frames : List Frame) (content : List UInt8) : Prop :=
  ∃ n tail last, n ≤ frames.length ∧
    content = (frames.take n).flatMap Message.encode ++ tail ∧
    s.answers (n + 1) = (frames.take n).map (.ok ∘ some) ++ [last] ∧
    (tail = [] ∧ last = .ok none ∨
      ∃ f fault, frames[n]? = some f ∧ Message.Begins f tail ∧ last = .error (.io fault) ∧
        fault.kind = .unexpectedEnd)

variable {s : Subscriber} {f : Frame} {frames : List Frame} {content more : List UInt8}

theorem subscribe_ok {channels : List UInt32} {incoming : List Reading} {peer : List Acceptance}
    {reply : Reply} (hw : (Request.write ⟨channels⟩ peer).fault = none)
    (hc : Carries incoming (reply.encode ++ more)) :
    ∃ s, (subscribe channels ⟨incoming, peer⟩).result = .ok s ∧ s.channels = channels ∧
      s.rate = reply.rate ∧ s.decoder = .ofLimit Decoder.defaultLimit ∧
      Carries s.incoming more := by
  obtain ⟨rest, hr, hrest⟩ := Reply.read_encode hc
  exact ⟨{ channels, rate := reply.rate, incoming := rest }, by simp only [subscribe, hw, hr],
    rfl, rfl, rfl, hrest⟩

theorem Takes.admits (ht : s.Takes f) : s.decoder.Admits f :=
  ⟨ht.wellShaped, ht.limit, ht.word⟩

def check (channels : List UInt32) :
    Except WireError (Option Frame) → Except WireError (Option Frame)
  | .ok (some f) =>
    if f.channelCount.toNat = channels.length then .ok (some f)
    else .error (.malformed (.unsubscribed f.channelCount.toNat channels.length))
  | other => other

theorem read_eq (s : Subscriber) :
    s.read = (check s.channels (s.decoder.read s.incoming).result,
      { s with
        decoder := (s.decoder.read s.incoming).decoder
        incoming := (s.decoder.read s.incoming).rest }) := by
  rw [read]
  cases (s.decoder.read s.incoming).result with
  | error e => rfl
  | ok found =>
    cases found with
    | none => rfl
    | some f =>
      by_cases hf : f.channelCount.toNat = s.channels.length
      · simp only [check, if_pos hf]
      · simp only [check, if_neg hf]

theorem answers_eq (n : Nat) (s : Subscriber) :
    s.answers n = (s.decoder.results n s.incoming).map (check s.channels) := by
  induction n generalizing s with
  | zero => rfl
  | succ n ih => rw [answers, read_eq, ih, Decoder.results_succ, List.map_cons]

theorem reads_of_prefix (ht : ∀ f ∈ frames, s.Takes f)
    (hp : content <+: frames.flatMap Message.encode) (hc : Carries s.incoming content) :
    s.Reads frames content := by
  obtain ⟨n, tail, last, hn, hcontent, hresults, hlast⟩ :=
    Decoder.results_of_prefix (fun f hf => (ht f hf).admits) hp hc
  have hframes : ((frames.take n).map (.ok ∘ some)).map (check s.channels) =
      (frames.take n).map (.ok ∘ some) := by
    rw [List.map_map]
    refine List.map_congr_left fun f hf => ?_
    exact if_pos (ht f (List.mem_of_mem_take hf)).channels
  have hcheck : check s.channels last = last := by
    rcases hlast with ⟨-, rfl⟩ | ⟨f, fault, -, -, rfl, -⟩
    · rfl
    · rfl
  refine ⟨n, tail, last, hn, hcontent, ?_, hlast⟩
  have hread := hresults 0
  rw [Nat.add_zero, List.replicate_zero] at hread
  rw [answers_eq, hread, List.map_append, hframes, List.map_singleton, hcheck]

theorem Reads.answers_of_length {k : Nat} (h : s.Reads frames content) (hpos : 0 < k)
    (hk : ∀ f ∈ frames, (Message.encode f).length = k) :
    ∃ last, s.answers (content.length / k + 1) =
        (frames.take (content.length / k)).map (.ok ∘ some) ++ [last] ∧
      (content.length % k = 0 ∧ last = .ok none ∨
        0 < content.length % k ∧ ∃ fault, last = .error (.io fault) ∧
          fault.kind = .unexpectedEnd) := by
  obtain ⟨n, tail, last, hn, rfl, hanswers, hlast⟩ := h
  have hmessages : ((frames.take n).flatMap Message.encode).length = n * k := by
    have hsame : (frames.take n).map (fun f => (Message.encode f).length) = List.replicate n k := by
      rw [List.map_congr_left fun f hf => hk f (List.mem_of_mem_take hf), List.map_const',
        List.length_take_of_le hn]
    rw [List.length_flatMap, hsame, List.sum_replicate_nat]
  rw [List.length_append, hmessages]
  rcases hlast with ⟨rfl, rfl⟩ | ⟨f, fault, hf, hbegins, rfl, hkind⟩
  · rw [List.length_nil, Nat.add_zero (n * k), Nat.mul_div_cancel n hpos, Nat.mul_mod_left]
    exact ⟨_, hanswers, .inl ⟨rfl, rfl⟩⟩
  · have hlt : tail.length < k := hk f (List.mem_of_getElem? hf) ▸ hbegins.lt
    rw [Nat.mul_comm, Nat.mul_add_div hpos, Nat.div_eq_of_lt hlt, Nat.add_zero, Nat.mul_add_mod,
      Nat.mod_eq_of_lt hlt]
    exact ⟨_, hanswers, .inr ⟨List.length_pos_of_ne_nil hbegins.ne_nil, fault, rfl, hkind⟩⟩

end SampleCast.Subscriber
