import SampleCast.Wire.Decoder

/-! Reading payloads into a buffer that is used again.
A payload is read over whatever the buffer holds from earlier messages, and is then decoded from the
whole buffer. `readOver` is the decoder with that buffer at hand. Main statements:
`readEachOver_eq`, that what the buffer held before is of no consequence, and `readEachOver_fits`,
that it never grows beyond the limit. -/

namespace SampleCast

namespace Reading

structure Refilled where
  buffer : List UInt8
  put : Nat
  stop : Stop
  rest : List Reading

def refill : List UInt8 → List Reading → Refilled
  | [], s => ⟨[], 0, .full, s⟩
  | old :: room, [] => ⟨old :: room, 0, .ended, []⟩
  | old :: room, .fault f :: s =>
    if f.isRetried then refill (old :: room) s else ⟨old :: room, 0, .failed f, s⟩
  | old :: room, .chunk [] :: s => ⟨old :: room, 0, .ended, s⟩
  | _ :: room, .chunk (b :: bs) :: s =>
    if room.length < bs.length then
      ⟨b :: bs.take room.length, room.length + 1, .full, .chunk (bs.drop room.length) :: s⟩
    else
      let r := refill (room.drop bs.length) s
      ⟨b :: bs ++ r.buffer, bs.length + 1 + r.put, r.stop, r.rest⟩

theorem refill_eq (room : List UInt8) (s : List Reading) :
    refill room s =
      ⟨(fill room.length s).bytes ++ room.drop (fill room.length s).bytes.length,
        (fill room.length s).bytes.length, (fill room.length s).stop,
        (fill room.length s).rest⟩ := by
  fun_induction refill room s with
  | case1 s => simp [fill]
  | case2 old room => simp [fill]
  | case3 old room f s hf ih => simpa [fill, hf] using ih
  | case4 old room f s hf => simp [fill, hf]
  | case5 old room s => simp [fill]
  | case6 old room b bs s hlt =>
    simp [fill, hlt, Nat.min_eq_left (Nat.le_of_lt hlt)]
  | case7 old room b bs s hlt r ih =>
    have hroom : (room.drop bs.length).length = room.length - bs.length := List.length_drop
    rw [hroom] at ih
    simp only [fill, List.length_cons, hlt, if_false, r, ih]
    simp
    omega

end Reading

namespace Decoder

variable {d : Decoder} {s : List Reading} {size : Nat} {buffer : List UInt8}

def resize (size : Nat) (buffer : List UInt8) : List UInt8 :=
  buffer.take size ++ List.replicate (size - buffer.length) 0

@[simp] theorem length_resize : (resize size buffer).length = size := by
  simp only [resize, List.length_append, List.length_take, List.length_replicate]
  omega

def readPayloadOver (d : Decoder) (size : Nat) (buffer : List UInt8) (s : List Reading) :
    Step × List UInt8 :=
  let r := Reading.refill (resize size buffer) s
  let d := { d with bufferSize := r.buffer.length, buffer := r.buffer.take r.put }
  match r.stop with
  | .ended => (⟨.error (.io .shortRead), d, r.rest⟩, r.buffer)
  | .failed f => (⟨.error (.io f), d, r.rest⟩, r.buffer)
  | .full =>
    match Payload.decode r.buffer with
    | .ok frame => (⟨.ok (some frame), d.accept size, r.rest⟩, r.buffer)
    | .error flaw => (⟨.error (.malformed flaw), d.reject, r.rest⟩, r.buffer)

def readSizedOver (d : Decoder) (buffer : List UInt8) (s : List Reading) : Step × List UInt8 :=
  match Reading.exactly 4 s with
  | (.error f, s) => (⟨.error (.io f), d, s⟩, buffer)
  | (.ok bytes, s) =>
    let size := BigEndian.decode bytes
    if d.limit < size then (⟨.error (.tooLarge size d.limit), d.reject, s⟩, buffer)
    else d.readPayloadOver size buffer s

def readOver (d : Decoder) (buffer : List UInt8) (s : List Reading) : Step × List UInt8 :=
  match Reading.exactlyOrEnd Marker.data.bytes.length s with
  | (.error f, s) => (⟨.error (.io f), d, s⟩, buffer)
  | (.ok none, s) => (⟨.ok none, d, s⟩, buffer)
  | (.ok (some bytes), s) =>
    if bytes ≠ Marker.data.bytes then (⟨.error (.badMarker .data), d.reject, s⟩, buffer)
    else d.readSizedOver buffer s

def readEachOver : Nat → Decoder → List UInt8 → List Reading → List (Step × List UInt8)
  | 0, _, _, _ => []
  | n + 1, d, buffer, s =>
    let (step, buffer) := d.readOver buffer s
    (step, buffer) :: readEachOver n step.decoder buffer step.rest

/-- Reading over a buffer answers what the decoder answers, and the buffer then has the size that
the decoder has noted and is within the limit, if it was so before. -/
structure Reuses (d : Decoder) (buffer : List UInt8) (step : Step) (out : Step × List UInt8) :
    Prop where
  step_eq : out.1 = step
  limit : step.decoder.limit = d.limit
  size : buffer.length = d.bufferSize → out.2.length = step.decoder.bufferSize
  fits : buffer.length ≤ d.limit → out.2.length ≤ d.limit

theorem Reuses.kept {step : Step} (hl : step.decoder.limit = d.limit)
    (hb : step.decoder.bufferSize = d.bufferSize) : d.Reuses buffer step (step, buffer) :=
  ⟨rfl, hl, fun h => h.trans hb.symm, id⟩

theorem readPayloadOver_reuses (hsize : size ≤ d.limit) :
    d.Reuses buffer (d.readPayload size s) (d.readPayloadOver size buffer s) := by
  have hle := Reading.length_fill_le size s
  have hlen : ((Reading.fill size s).bytes ++
      (resize size buffer).drop (Reading.fill size s).bytes.length).length = size := by
    simp only [List.length_append, List.length_drop, length_resize]
    omega
  have hroom : ((Reading.fill size s).bytes ++
      (resize size buffer).drop (Reading.fill size s).bytes.length).length ≤ d.limit :=
    Nat.le_trans (Nat.le_of_eq hlen) hsize
  simp only [readPayloadOver, Reading.refill_eq, length_resize, hlen, List.take_left, readPayload,
    Reading.exactly]
  cases hstop : (Reading.fill size s).stop with
  | ended => exact ⟨rfl, rfl, fun _ => hlen, fun _ => hroom⟩
  | failed f => exact ⟨rfl, rfl, fun _ => hlen, fun _ => hroom⟩
  | full =>
    -- A full buffer was overwritten to its end.
    have hfull := Reading.length_fill_of_full hstop
    have hwhole := Nat.le_trans (Nat.le_of_eq hfull) hsize
    have hdrop : (resize size buffer).drop (Reading.fill size s).bytes.length = [] :=
      List.drop_eq_nil_of_le (by simp only [length_resize, hfull, Nat.le_refl])
    simp only [hdrop, List.append_nil]
    cases Payload.decode (Reading.fill size s).bytes with
    | ok frame => exact ⟨rfl, rfl, fun _ => hfull, fun _ => hwhole⟩
    | error flaw => exact ⟨rfl, rfl, fun _ => hfull, fun _ => hwhole⟩

theorem readSizedOver_reuses (d : Decoder) (buffer : List UInt8) (s : List Reading) :
    d.Reuses buffer (d.readSized s) (d.readSizedOver buffer s) := by
  unfold readSized readSizedOver
  rcases Reading.exactly 4 s with ⟨_ | word, rest⟩
  · exact .kept rfl rfl
  · simp only
    by_cases hlimit : d.limit < BigEndian.decode word
    · simp only [if_pos hlimit]
      exact .kept rfl rfl
    · simp only [if_neg hlimit]
      exact readPayloadOver_reuses (Nat.not_lt.mp hlimit)

theorem readOver_reuses (d : Decoder) (buffer : List UInt8) (s : List Reading) :
    d.Reuses buffer (d.read s) (d.readOver buffer s) := by
  unfold read readOver
  rcases Reading.exactlyOrEnd Marker.data.bytes.length s with ⟨_ | _ | marker, rest⟩
  · exact .kept rfl rfl
  · exact .kept rfl rfl
  · simp only
    by_cases hdata : marker ≠ Marker.data.bytes
    · simp only [if_pos hdata]
      exact .kept rfl rfl
    · simp only [if_neg hdata]
      exact readSizedOver_reuses d buffer rest

theorem readEachOver_eq (n : Nat) (d : Decoder) (buffer : List UInt8) (s : List Reading) :
    (readEachOver n d buffer s).map (·.1) = readEach n d s := by
  induction n generalizing d buffer s with
  | zero => rfl
  | succ n ih =>
    have h := readOver_reuses d buffer s
    simp only [readEachOver, readEach, List.map_cons, h.step_eq, ih]

theorem readEachOver_fits (n : Nat) (s : List Reading) (hsize : buffer.length = d.bufferSize)
    (hfits : buffer.length ≤ d.limit) :
    ∀ x ∈ readEachOver n d buffer s,
      x.2.length = x.1.decoder.bufferSize ∧ x.2.length ≤ d.limit := by
  induction n generalizing d buffer s with
  | zero => exact nofun
  | succ n ih =>
    have h := readOver_reuses d buffer s
    rw [← h.step_eq] at h
    intro x hx
    simp only [readEachOver, List.mem_cons] at hx
    rcases hx with rfl | hx
    · exact ⟨h.size hsize, h.fits hfits⟩
    · rw [← h.limit]
      exact ih _ (h.size hsize) (h.limit.symm ▸ h.fits hfits) x hx

end Decoder
end SampleCast
