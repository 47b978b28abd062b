import Mathlib.Algebra.BigOperators.Group.List.Basic
import Mathlib.Algebra.GroupWithZero.Nat
import SampleCast.Proofs.Wire.Independence
import SampleCast.Proofs.Wire.Messages

/-! The books of a decoder.
Whatever the stream does, each call takes as many bytes as its answer says, and the counters are
those of the answers so far. A payload that is announced too long is neither read nor is there room
made for it. Main statements: `consumes_read` and `counted_read`, on one call, and `books_kept`, on
any number of calls. -/

namespace SampleCast.Decoder

open Reading

abbrev Answer := Except WireError (Option Frame)

def isFrame : Answer → Bool
  | .ok (some _) => true
  | _ => false

def volume : Answer → Nat
  | .ok (some f) => Payload.size f
  | _ => 0

def isRejection : Answer → Bool
  | .error (.badMarker _) => true
  | .error (.tooLarge _ _) => true
  | .error (.malformed _) => true
  | _ => false

def isQuiet : Answer → Bool
  | .ok none => true
  | .error (.io _) => true
  | _ => false

def announced (taken : List UInt8) : Nat := BigEndian.decode ((taken.drop 21).take 4)

/-- The bytes that a call has taken off the stream are as many as its answer says. A marker is 21
bytes long, and the size behind it 4. -/
def Consumes (limit : Nat) (taken : List UInt8) : Answer → Prop
  | .ok none => taken.length = 0
  | .ok (some f) => taken.length = 25 + announced taken ∧
      announced taken = Payload.size f ∧ announced taken ≤ limit
  | .error (.badMarker m) => taken.length = 21 ∧ m = .data
  | .error (.tooLarge size most) => taken.length = 25 ∧
      announced taken = size ∧ most = limit ∧ limit < size
  | .error (.malformed _) => taken.length = 25 + announced taken ∧
      announced taken ≤ limit
  | .error (.io _) => taken.length ≤ 25 + limit
  | .error (.refused _) => False

variable {d : Decoder} {s : List Reading} {front taken : List UInt8}

theorem eq_zero_of_isQuiet {a : Answer} (h : isQuiet a) :
    (isFrame a).toNat = 0 ∧ volume a = 0 ∧ (isRejection a).toNat = 0 := by
  rcases a with (f | m | ⟨size, limit⟩ | flaw | flaw) | _ | f
  · exact ⟨rfl, rfl, rfl⟩
  · cases h
  · cases h
  · cases h
  · cases h
  · exact ⟨rfl, rfl, rfl⟩
  · cases h

theorem consumes_fault {limit : Nat} {f : Fault} (h : taken.length ≤ 25 + limit) :
    Consumes limit taken (.error (.io f)) := h

theorem announced_append (hlen : front.length = 25) :
    announced (front ++ taken) = announced front := by
  rw [announced, announced, List.drop_append_of_le_length (by omega),
    List.take_append_of_le_length (by rw [List.length_drop]; omega)]

theorem announced_word {marker word : List UInt8} (hmarker : marker.length = 21)
    (hword : word.length = 4) : announced (marker ++ word) = BigEndian.decode word := by
  rw [announced, List.drop_left' hmarker, List.take_of_length_le (Nat.le_of_eq hword)]

theorem consumes_readPayload {size : Nat} (hfront : front.length = 25)
    (hsize : announced front = size) (hlimit : size ≤ d.limit) :
    ∃ taken, bytes s = taken ++ bytes (d.readPayload size s).rest ∧
      Consumes d.limit (front ++ taken) (d.readPayload size s).result := by
  have hbytes := bytes_fill size s
  have hle := length_fill_le size s
  have hfull := @length_fill_of_full size s
  simp only [readPayload, exactly_eq]
  generalize fill size s = got at *
  have hsame : announced (front ++ got.bytes) = size := (announced_append hfront).trans hsize
  have hlen : (front ++ got.bytes).length = 25 + got.bytes.length := by
    rw [List.length_append, hfront]
  cases hstop : got.stop with
  | ended =>
    exact ⟨got.bytes, hbytes.symm, consumes_fault (by omega)⟩
  | failed f =>
    exact ⟨got.bytes, hbytes.symm, consumes_fault (by omega)⟩
  | full =>
    have hwhole := hfull hstop
    simp only [outcome]
    cases hdecode : Payload.decode got.bytes with
    | error flaw => exact ⟨got.bytes, hbytes.symm, by rw [hsame, hlen, hwhole], hsame ▸ hlimit⟩
    | ok f =>
      obtain ⟨hf, himage⟩ := Payload.eq_encode_of_decode hdecode
      have hpayload : size = Payload.size f := by
        rw [← hwhole, himage, Payload.length_encode hf]
      exact ⟨got.bytes, hbytes.symm, by rw [hsame, hlen, hwhole], hsame.trans hpayload,
        hsame ▸ hlimit⟩

theorem consumes_readSized (hfront : front.length = 21) :
    ∃ taken, bytes s = taken ++ bytes (d.readSized s).rest ∧
      Consumes d.limit (front ++ taken) (d.readSized s).result := by
  have hbytes := bytes_fill 4 s
  have hle := length_fill_le 4 s
  have hfull := @length_fill_of_full 4 s
  simp only [readSized, exactly_eq]
  generalize fill 4 s = got at *
  have hlen : (front ++ got.bytes).length = 21 + got.bytes.length := by
    rw [List.length_append, hfront]
  cases hstop : got.stop with
  | ended =>
    exact ⟨got.bytes, hbytes.symm, consumes_fault (by omega)⟩
  | failed f =>
    exact ⟨got.bytes, hbytes.symm, consumes_fault (by omega)⟩
  | full =>
    have hword := hfull hstop
    have hopening : (front ++ got.bytes).length = 25 := by rw [hlen, hword]
    have hsize := announced_word hfront hword
    simp only [outcome]
    by_cases hlimit : d.limit < BigEndian.decode got.bytes
    · simp only [if_pos hlimit]
      exact ⟨got.bytes, hbytes.symm, hopening, hsize, rfl, hlimit⟩
    · simp only [if_neg hlimit]
      obtain ⟨taken, hrest, hconsumes⟩ :=
        consumes_readPayload (s := got.rest) hopening hsize (Nat.not_lt.mp hlimit)
      refine ⟨got.bytes ++ taken, ?_, ?_⟩
      · rw [← hbytes, hrest, List.append_assoc]
      · rwa [← List.append_assoc]

theorem consumes_read (d : Decoder) (s : List Reading) :
    ∃ taken, bytes s = taken ++ bytes (d.read s).rest ∧
      Consumes d.limit taken (d.read s).result := by
  have hmarker : Marker.data.bytes.length = 21 := rfl
  have hbytes := bytes_fill 21 s
  have hle := length_fill_le 21 s
  have hfull := @length_fill_of_full 21 s
  simp only [read, exactlyOrEnd_eq, hmarker]
  generalize fill 21 s = got at *
  cases hstop : got.stop with
  | ended =>
    simp only [outcomeOrEnd]
    by_cases hnil : got.bytes.isEmpty
    · simp only [if_pos hnil]
      exact ⟨got.bytes, hbytes.symm, List.length_eq_zero_iff.mpr (List.isEmpty_iff.mp hnil)⟩
    · simp only [if_neg hnil]
      exact ⟨got.bytes, hbytes.symm, consumes_fault (by omega)⟩
  | failed f =>
    exact ⟨got.bytes, hbytes.symm, consumes_fault (by omega)⟩
  | full =>
    have hlen := hfull hstop
    simp only [outcomeOrEnd]
    by_cases hdata : got.bytes ≠ Marker.data.bytes
    · simp only [if_pos hdata]
      exact ⟨got.bytes, hbytes.symm, hlen, rfl⟩
    · simp only [if_neg hdata]
      obtain ⟨taken, hrest, hconsumes⟩ := consumes_readSized (d := d) (s := got.rest) hlen
      exact ⟨got.bytes ++ taken, by rw [← hbytes, hrest, List.append_assoc], hconsumes⟩

/-- A call has counted its answer and nothing else, and has kept its buffer within the limit. -/
structure Counted (d : Decoder) (x : Step) : Prop where
  frames : x.decoder.framesDecoded = d.framesDecoded + (isFrame x.result).toNat
  bytes : x.decoder.bytesDecoded = d.bytesDecoded + volume x.result
  rejected : x.decoder.framesRejected = d.framesRejected + (isRejection x.result).toNat
  room : d.bufferSize ≤ d.limit → x.decoder.bufferSize ≤ d.limit

theorem counted_readPayload {size : Nat} (hlimit : size ≤ d.limit) :
    d.Counted (d.readPayload size s) := by
  have hfull := @length_fill_of_full size s
  simp only [readPayload, exactly_eq]
  generalize fill size s = got at *
  cases hstop : got.stop with
  | ended => exact ⟨rfl, rfl, rfl, fun _ => hlimit⟩
  | failed f => exact ⟨rfl, rfl, rfl, fun _ => hlimit⟩
  | full =>
    simp only [outcome]
    cases hdecode : Payload.decode got.bytes with
    | error flaw => exact ⟨rfl, rfl, rfl, fun _ => hlimit⟩
    | ok f =>
      obtain ⟨hf, himage⟩ := Payload.eq_encode_of_decode hdecode
      have hpayload : size = Payload.size f := by
        rw [← hfull hstop, himage, Payload.length_encode hf]
      exact ⟨rfl, congrArg (d.bytesDecoded + ·) hpayload, rfl, fun _ => hlimit⟩

theorem counted_readSized : d.Counted (d.readSized s) := by
  rw [readSized_eq]
  rcases (exactly 4 s).1 with f | word
  · exact ⟨rfl, rfl, rfl, id⟩
  · by_cases hlimit : d.limit < BigEndian.decode word
    · simp only [afterSize, if_pos hlimit]
      exact ⟨rfl, rfl, rfl, id⟩
    · simp only [afterSize, if_neg hlimit]
      exact counted_readPayload (Nat.not_lt.mp hlimit)

theorem counted_read (d : Decoder) (s : List Reading) : d.Counted (d.read s) := by
  rw [read_eq]
  rcases (exactlyOrEnd Marker.data.bytes.length s).1 with f | _ | marker
  · exact ⟨rfl, rfl, rfl, id⟩
  · exact ⟨rfl, rfl, rfl, id⟩
  · by_cases hdata : marker ≠ Marker.data.bytes
    · simp only [afterMarker, if_pos hdata]
      exact ⟨rfl, rfl, rfl, id⟩
    · simp only [afterMarker, if_neg hdata]
      exact counted_readSized

def callAfter : Nat → Decoder → List Reading → Call
  | 0, d, s => ⟨d, s⟩
  | n + 1, d, s => callAfter n (d.read s).decoder (d.read s).rest

theorem callAfter_succ (n : Nat) (d : Decoder) (s : List Reading) :
    callAfter (n + 1) d s = ⟨(callAfter n d s).step.decoder, (callAfter n d s).step.rest⟩ := by
  induction n generalizing d s with
  | zero => rfl
  | succ n ih => exact ih _ _

theorem results_concat (n : Nat) (d : Decoder) (s : List Reading) :
    d.results (n + 1) s = d.results n s ++ [(callAfter n d s).step.result] := by
  induction n generalizing d s with
  | zero => rfl
  | succ n ih => rw [results_succ, ih, results_succ, List.cons_append]; rfl

structure Tallied (d : Decoder) (most : Nat) (answers : List Answer) : Prop where
  limit : d.limit = most
  frames : d.framesDecoded = answers.countP isFrame
  bytes : d.bytesDecoded = (answers.map volume).sum
  rejected : d.framesRejected = answers.countP isRejection
  room : d.bufferSize ≤ most

theorem Tallied.step {limit : Nat} {answers : List Answer} (h : d.Tallied limit answers) :
    (d.read s).decoder.Tallied limit (answers ++ [(d.read s).result]) := by
  obtain ⟨hframes, hbytes, hrejected, hroom⟩ := counted_read d s
  refine ⟨(limit_read d s).trans h.limit, ?_, ?_, ?_, ?_⟩
  · rw [hframes, h.frames, List.countP_append, List.countP_singleton]
    cases isFrame (d.read s).result <;> rfl
  · rw [hbytes, h.bytes, List.map_append, List.sum_append, List.map_singleton, List.sum_singleton]
  · rw [hrejected, h.rejected, List.countP_append, List.countP_singleton]
    cases isRejection (d.read s).result <;> rfl
  · rw [← h.limit]
    exact hroom (h.limit ▸ h.room)

theorem tallied_after (limit n : Nat) (s : List Reading) :
    (callAfter n (ofLimit limit) s).decoder.Tallied limit ((ofLimit limit).results n s) := by
  induction n with
  | zero => exact ⟨rfl, rfl, rfl, rfl, Nat.zero_le _⟩
  | succ n ih =>
    rw [callAfter_succ, results_concat]
    exact ih.step

theorem books_kept (limit n : Nat) (s : List Reading) :
    let c := callAfter n (ofLimit limit) s
    let answers := (ofLimit limit).results (n + 1) s
    (∃ taken, bytes c.stream = taken ++ bytes c.step.rest ∧
      Consumes limit taken c.step.result) ∧
    c.step.decoder.framesDecoded = answers.countP isFrame ∧
    c.step.decoder.bytesDecoded = (answers.map volume).sum ∧
    c.step.decoder.framesRejected = answers.countP isRejection ∧
    (isQuiet c.step.result → c.step.decoder.framesDecoded = c.decoder.framesDecoded ∧
      c.step.decoder.bytesDecoded = c.decoder.bytesDecoded ∧
      c.step.decoder.framesRejected = c.decoder.framesRejected) ∧
    c.step.decoder.bufferSize ≤ limit := by
  intro c answers
  have hbefore := tallied_after limit n s
  have hafter := hbefore.step (s := c.stream)
  have hanswers : answers = (ofLimit limit).results n s ++ [c.step.result] :=
    results_concat n (ofLimit limit) s
  obtain ⟨taken, hbytes, hconsumes⟩ := consumes_read c.decoder c.stream
  obtain ⟨hframes, hvolume, hrejected, -⟩ := counted_read c.decoder c.stream
  refine ⟨⟨taken, hbytes, hbefore.limit ▸ hconsumes⟩, hanswers ▸ hafter.frames,
    hanswers ▸ hafter.bytes, hanswers ▸ hafter.rejected, fun hquiet => ?_, hafter.room⟩
  obtain ⟨hnoFrame, hnothing, hnoRejection⟩ := eq_zero_of_isQuiet hquiet
  exact ⟨hframes.trans (congrArg _ hnoFrame), hvolume.trans (congrArg _ hnothing),
    hrejected.trans (congrArg _ hnoRejection)⟩

def mixed : List Reading :=
  [.chunk (Message.encode dot), .chunk (Marker.data.bytes ++ [0, 0, 0, 3, 1, 2, 3]),
    .chunk (Marker.data.bytes ++ [0, 0, 0, 26]), .chunk (List.replicate 21 0), .chunk [],
    .fault reset]

theorem books_kept_mixed :
    let c := callAfter 5 (ofLimit 25) mixed
    isQuiet c.step.result ∧ (ofLimit 25).results 6 mixed = [.ok (some dot),
      .error (.malformed (.shorterThanHeader 3)), .error (.tooLarge 26 25),
      .error (.badMarker .data), .ok none, .error (.io reset)] ∧
    c.step.decoder.framesDecoded = 1 ∧ c.step.decoder.bytesDecoded = 25 ∧
    c.step.decoder.framesRejected = 3 ∧ c.decoder.framesRejected = 3 := by
  have hquiet : isQuiet (callAfter 5 (ofLimit 25) mixed).step.result := by decide +kernel
  have hanswers : (ofLimit 25).results 6 mixed = [.ok (some dot),
      .error (.malformed (.shorterThanHeader 3)), .error (.tooLarge 26 25),
      .error (.badMarker .data), .ok none, .error (.io reset)] := by decide +kernel
  obtain ⟨-, hframes, hbytes, hrejected, hsame, -⟩ := books_kept 25 5 mixed
  rw [hanswers] at hframes hbytes hrejected
  obtain ⟨-, -, hkept⟩ := hsame hquiet
  exact ⟨hquiet, hanswers, hframes, hbytes, hrejected, hkept.symm.trans hrejected⟩

end SampleCast.Decoder
