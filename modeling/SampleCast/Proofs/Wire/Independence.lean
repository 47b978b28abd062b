import SampleCast.Proofs.Stream.Singly
import SampleCast.Proofs.Wire.Reuse

/-! Reading that depends on the bytes alone.
A decoder that is called again and again gives the same answers, counts the same and consumes the
same, however the bytes are divided and whatever is tried again; a fault that strikes before a call
is handed a byte is answered, and otherwise as if it had not struck. Main statements: `read_takes`,
on one call, and `reads_independently`, on any number of calls. -/

namespace SampleCast.Decoder

open Reading

variable {d d' : Decoder} {s s' : List Reading} {size n : Nat}

def Step.parts (x : Step) : (Except WireError (Option Frame) × Decoder) × List Reading :=
  ((x.result, x.decoder), x.rest)

def payloadAnswer (d : Decoder) (size : Nat) (got : List UInt8) (stop : Stop) :
    Except WireError (Option Frame) × Decoder :=
  let d := { d with bufferSize := size, buffer := got }
  match outcome got stop with
  | .error f => (.error (.io f), d)
  | .ok bytes =>
    match Payload.decode bytes with
    | .ok frame => (.ok (some frame), d.accept size)
    | .error flaw => (.error (.malformed flaw), d.reject)

def afterSize (d : Decoder) : Except Fault (List UInt8) → List Reading → Step
  | .error f, s => ⟨.error (.io f), d, s⟩
  | .ok word, s =>
    let size := BigEndian.decode word
    if d.limit < size then ⟨.error (.tooLarge size d.limit), d.reject, s⟩
    else d.readPayload size s

def afterMarker (d : Decoder) : Except Fault (Option (List UInt8)) → List Reading → Step
  | .error f, s => ⟨.error (.io f), d, s⟩
  | .ok none, s => ⟨.ok none, d, s⟩
  | .ok (some marker), s =>
    if marker ≠ Marker.data.bytes then ⟨.error (.badMarker .data), d.reject, s⟩ else d.readSized s

theorem readPayload_eq : (d.readPayload size s).parts =
    (d.payloadAnswer size (fill size s).bytes (fill size s).stop, (fill size s).rest) := by
  simp only [readPayload, payloadAnswer, exactly_eq]
  cases outcome (fill size s).bytes (fill size s).stop with
  | error f => rfl
  | ok bytes =>
    simp only
    cases Payload.decode bytes <;> rfl

theorem readSized_eq : d.readSized s = d.afterSize (exactly 4 s).1 (exactly 4 s).2 := by
  unfold readSized
  rcases exactly 4 s with ⟨_ | word, rest⟩ <;> rfl

theorem read_eq : d.read s = d.afterMarker (exactlyOrEnd Marker.data.bytes.length s).1
    (exactlyOrEnd Marker.data.bytes.length s).2 := by
  unfold read
  rcases exactlyOrEnd Marker.data.bytes.length s with ⟨_ | _ | marker, rest⟩ <;> rfl

theorem isReader_refused (result : Except WireError (Option Frame)) (d : Decoder) :
    IsReader fun s => (Step.mk result d s).parts :=
  isReader_nothing (result, d)

theorem isReader_readPayload (d : Decoder) (size : Nat) :
    IsReader fun s => (d.readPayload size s).parts := by
  simp only [readPayload_eq]
  exact (isReader_fill size).map fun got => d.payloadAnswer size got.1 got.2

theorem isReader_readSized (d : Decoder) : IsReader fun s => (d.readSized s).parts := by
  simp only [readSized_eq]
  refine (isReader_exactly 4).bind (fun r s => (d.afterSize r s).parts) fun r => ?_
  cases r with
  | error f => exact isReader_refused _ d
  | ok word =>
    by_cases hlimit : d.limit < BigEndian.decode word
    · simp only [afterSize, if_pos hlimit]
      exact isReader_refused _ d.reject
    · simp only [afterSize, if_neg hlimit]
      exact isReader_readPayload d _

theorem isReader_read (d : Decoder) : IsReader fun s => (d.read s).parts := by
  simp only [read_eq]
  refine (isReader_exactlyOrEnd _).bind (fun r s => (d.afterMarker r s).parts) fun r => ?_
  rcases r with f | found | marker
  · exact isReader_refused _ d
  · exact isReader_refused _ d
  · by_cases hdata : marker ≠ Marker.data.bytes
    · simp only [afterMarker, if_pos hdata]
      exact isReader_refused _ d.reject
    · simp only [afterMarker, if_neg hdata]
      exact isReader_readSized d

theorem read_takes (d : Decoder) (h : ∀ r ∈ s, r.IsLive) :
    ∃ taken, (∀ r ∈ (d.read s).rest, r.IsLive) ∧ singly s = taken ++ singly (d.read s).rest ∧
      ∀ s' more, (∀ r ∈ s', r.IsLive) → singly s' = taken ++ more →
        (singly (d.read s).rest = [] → more = []) →
        (d.read s').result = (d.read s).result ∧ (d.read s').decoder = (d.read s).decoder ∧
          singly (d.read s').rest = more ∧ ∀ r ∈ (d.read s').rest, r.IsLive := by
  obtain ⟨taken, htakes⟩ := isReader_read d s h
  refine ⟨taken, htakes.live, htakes.split, fun s' more hs' hsplit hmore => ?_⟩
  obtain ⟨hanswer, hrest⟩ := htakes.same s' more hs' hsplit hmore
  obtain ⟨_, htakes'⟩ := isReader_read d s' hs'
  obtain ⟨hresult, hdecoder⟩ := Prod.mk.inj hanswer
  exact ⟨hresult, hdecoder, hrest, htakes'.live⟩

theorem read_of_strike {f : Fault} (hf : strike? s = some f) :
    ∃ rest, d.read s = ⟨.error (.io f), d, rest⟩ ∧ bytes rest = bytes s ∧ ∀ r ∈ rest, r ∈ s := by
  have hpos : 0 < Marker.data.bytes.length := by decide
  obtain ⟨rest, hfill, hbytes, hmem⟩ := fill_of_strike hf hpos
  exact ⟨rest, by simp only [read, exactlyOrEnd, hfill], hbytes, hmem⟩

theorem read_of_limit (h : d'.limit = d.limit) (s : List Reading) :
    (d'.read s).result = (d.read s).result ∧ (d'.read s).rest = (d.read s).rest := by
  unfold read
  rcases exactlyOrEnd Marker.data.bytes.length s with ⟨_ | _ | marker, s₁⟩
  · exact ⟨rfl, rfl⟩
  · exact ⟨rfl, rfl⟩
  by_cases hdata : marker ≠ Marker.data.bytes
  · simp only [if_pos hdata, and_self]
  simp only [if_neg hdata, readSized]
  rcases exactly 4 s₁ with ⟨_ | word, s₂⟩
  · exact ⟨rfl, rfl⟩
  by_cases hlimit : d.limit < BigEndian.decode word
  · simp only [h, if_pos hlimit, and_self]
  simp only [h, if_neg hlimit, readPayload]
  rcases exactly (BigEndian.decode word) s₂ with ⟨_ | bytes, s₃⟩
  · exact ⟨rfl, rfl⟩
  simp only
  cases Payload.decode bytes <;> exact ⟨rfl, rfl⟩

structure Call where
  decoder : Decoder
  stream : List Reading

namespace Call

def step (c : Call) : Step := c.decoder.read c.stream

def isStruck (c : Call) : Bool := (strike? c.stream).isSome

end Call

def calls : Nat → Decoder → List Reading → List Call
  | 0, _, _ => []
  | n + 1, d, s => ⟨d, s⟩ :: calls n (d.read s).decoder (d.read s).rest

theorem readEach_eq (n : Nat) (d : Decoder) (s : List Reading) :
    readEach n d s = (calls n d s).map Call.step := by
  induction n generalizing d s with
  | zero => rfl
  | succ n ih => simp only [readEach, calls, List.map_cons, ih, Call.step]

structure Account where
  result : Except WireError (Option Frame)
  framesDecoded : Nat
  bytesDecoded : Nat
  framesRejected : Nat
  consumed : Nat

def Step.account (size : Nat) (x : Step) : Account where
  result := x.result
  framesDecoded := x.decoder.framesDecoded
  bytesDecoded := x.decoder.bytesDecoded
  framesRejected := x.decoder.framesRejected
  consumed := size - (bytes x.rest).length

def accounts (n : Nat) (d : Decoder) (s : List Reading) : List Account :=
  (readEach n d s).map (Step.account (bytes s).length)

/-- The stream without the faults that strike one of the calls before it is handed a byte. -/
def undisturbed : Nat → Decoder → List Reading → List Reading
  | 0, _, s => singly s
  | n + 1, d, s =>
    let step := d.read s
    let more := undisturbed n step.decoder step.rest
    if (strike? s).isSome then more
    else (singly s).take ((singly s).length - (singly step.rest).length) ++ more

theorem undisturbed_of_end (n : Nat) (d : Decoder) (h : ∀ r ∈ s, r.IsLive) (hs : singly s = []) :
    undisturbed n d s = [] := by
  induction n generalizing d s with
  | zero => exact hs
  | succ n ih =>
    obtain ⟨taken, hlive, hsplit, -⟩ := read_takes d h
    rw [hs, eq_comm, List.append_eq_nil_iff] at hsplit
    simp only [undisturbed, hs, List.take_nil, List.nil_append, ite_self]
    exact ih _ hlive hsplit.2

theorem take_of_append {α : Type} {xs ys zs : List α} (h : xs = ys ++ zs) :
    xs.take (xs.length - zs.length) = ys := by
  simp [h]

theorem bytes_undisturbed (n : Nat) (d : Decoder) (h : ∀ r ∈ s, r.IsLive) :
    bytes (undisturbed n d s) = bytes s := by
  induction n generalizing d s with
  | zero => exact bytes_singly s
  | succ n ih =>
    cases hf : strike? s with
    | some f =>
      obtain ⟨rest, hread, hbytes, hmem⟩ := read_of_strike (d := d) hf
      simp only [undisturbed, hf, Option.isSome_some, if_true, hread]
      rw [ih d fun r hr => h r (hmem r hr), hbytes]
    | none =>
      obtain ⟨taken, hlive, hsplit, -⟩ := read_takes d h
      simp only [undisturbed, hf, Option.isSome_none, Bool.false_eq_true, if_false,
        take_of_append hsplit]
      rw [bytes_append, ih _ hlive, ← bytes_singly s, hsplit, bytes_append, bytes_singly]

theorem accounts_of_singly (n : Nat) (d : Decoder) (hs : ∀ r ∈ s, r.IsLive)
    (hs' : ∀ r ∈ s', r.IsLive) (h : singly s' = singly s) : accounts n d s' = accounts n d s := by
  have hsize : bytes s' = bytes s := by rw [← bytes_singly, h, bytes_singly]
  rw [accounts, accounts, hsize]
  generalize (bytes s).length = size
  induction n generalizing d s s' with
  | zero => rfl
  | succ n ih =>
    obtain ⟨taken, hlive, hsplit, hsame⟩ := read_takes d hs
    obtain ⟨hresult, hdecoder, hrest, hlive'⟩ := hsame s' _ hs' (h.trans hsplit) id
    have hbytes : bytes (d.read s').rest = bytes (d.read s).rest := by
      rw [← bytes_singly, hrest, bytes_singly]
    simp only [readEach, List.map_cons, Step.account, hresult, hdecoder, hbytes,
      ih (d.read s).decoder hlive hlive' hrest hbytes]

theorem accounts_undisturbed (n : Nat) (d : Decoder) (hs : ∀ r ∈ s, r.IsLive)
    (hs' : ∀ r ∈ s', r.IsLive) (h : singly s' = undisturbed n d s) :
    bytes s' = bytes s ∧
      let kept := (calls n d s).filter (!·.isStruck)
      accounts kept.length d s' = kept.map fun c => c.step.account (bytes s).length := by
  have hsize : bytes s' = bytes s := by rw [← bytes_singly, h, bytes_undisturbed n d hs]
  refine ⟨hsize, ?_⟩
  simp only [accounts, hsize]
  generalize (bytes s).length = size
  induction n generalizing d s s' with
  | zero => rfl
  | succ n ih =>
    cases hf : strike? s with
    | some f =>
      obtain ⟨rest, hread, hbytes, hmem⟩ := read_of_strike (d := d) hf
      have hstruck : Call.isStruck ⟨d, s⟩ = true := by simp only [Call.isStruck, hf, Option.isSome]
      simp only [undisturbed, hf, Option.isSome_some, if_true, hread] at h
      have hkept := ih d (fun r hr => hs r (hmem r hr)) hs' h (hsize.trans hbytes.symm)
      simpa only [calls, hread, List.filter_cons, hstruck, Bool.not_true, Bool.false_eq_true,
        if_false] using hkept
    | none =>
      obtain ⟨taken, hlive, hsplit, hsame⟩ := read_takes d hs
      have hfree : Call.isStruck ⟨d, s⟩ = false := by simp only [Call.isStruck, hf, Option.isSome]
      simp only [undisturbed, hf, Option.isSome_none, Bool.false_eq_true, if_false,
        take_of_append hsplit] at h
      obtain ⟨hresult, hdecoder, hrest, hlive'⟩ := hsame s' _ hs' h fun hnil =>
        undisturbed_of_end n _ hlive hnil
      have hbytes : bytes (d.read s').rest = bytes (d.read s).rest := by
        rw [← bytes_singly, hrest, bytes_undisturbed n _ hlive]
      simp only [calls, List.filter_cons, hfree, Bool.not_false, if_true, List.length_cons,
        readEach, List.map_cons, Step.account, Call.step, hresult, hdecoder, hbytes]
      exact congrArg _ (ih (d.read s).decoder hlive hlive' hrest hbytes)

theorem limit_read (d : Decoder) (s : List Reading) : (d.read s).decoder.limit = d.limit :=
  (readOver_reuses d [] s).limit

theorem limit_of_mem_calls {c : Call} (h : c ∈ calls n d s) : c.decoder.limit = d.limit := by
  induction n generalizing d s with
  | zero => cases h
  | succ n ih =>
    rcases List.mem_cons.mp h with rfl | h
    · rfl
    · exact (ih h).trans (limit_read d s)

/-- The answers, the counts and what is consumed depend on the bytes alone. A fault that strikes
before a byte is handed out is answered and changes nothing else, so that without those answers the
calls are those on the undisturbed stream. Neither what a decoder has read before nor what its
buffer holds has any part in what it answers, and the buffer stays within the limit. -/
theorem reads_independently (d : Decoder) :
    (∀ content s s', Carries s content → Carries s' content → ∀ n,
      accounts n d s' = accounts n d s) ∧
    (∀ n s, ∀ c ∈ calls n d s,
      (∀ f, strike? c.stream = some f → c.step.result = .error (.io f) ∧
        c.step.decoder = c.decoder ∧ bytes c.step.rest = bytes c.stream) ∧
      ∀ d' : Decoder, d'.limit = d.limit →
        (d'.read c.stream).result = c.step.result ∧ (d'.read c.stream).rest = c.step.rest) ∧
    (∀ n s s', (∀ r ∈ s, r.IsLive) → (∀ r ∈ s', r.IsLive) → singly s' = undisturbed n d s →
      bytes s' = bytes s ∧
        let kept := (calls n d s).filter (!·.isStruck)
        accounts kept.length d s' = kept.map fun c => c.step.account (bytes s).length) ∧
    ∀ n buffer s,
      (readEachOver n d buffer s).map (·.1) = readEach n d s ∧
      (buffer.length = d.bufferSize → buffer.length ≤ d.limit →
        ∀ x ∈ readEachOver n d buffer s,
          x.2.length = x.1.decoder.bufferSize ∧ x.2.length ≤ d.limit) := by
  refine ⟨?_, ?_, ?_, ?_⟩
  · intro content s s' h h' n
    have hsingly : singly s' = singly s := by
      rw [singly_of_steady h'.steady, singly_of_steady h.steady, h'.bytes, h.bytes]
    exact accounts_of_singly n d (fun r hr => (h.steady r hr).isLive)
      (fun r hr => (h'.steady r hr).isLive) hsingly
  · intro n s c hc
    refine ⟨fun f hf => ?_, fun d' hd' => ?_⟩
    · obtain ⟨rest, hread, hbytes, -⟩ := read_of_strike (d := c.decoder) hf
      rw [Call.step, hread]
      exact ⟨rfl, rfl, hbytes⟩
    · exact read_of_limit (hd'.trans (limit_of_mem_calls hc).symm) c.stream
  · intro n s s' hs hs' h
    exact accounts_undisturbed n d hs hs' h
  · intro n buffer s
    exact ⟨readEachOver_eq n d buffer s, fun hsize hfits => readEachOver_fits n s hsize hfits⟩

def dot : Frame := ⟨7, 1, 1, [0x3ff0000000000000], [true]⟩

def whole : List Reading := [.chunk (Message.encode dot ++ Message.encode dot)]

def reset : Fault := ⟨.connectionReset, "reset"⟩

def broken : List Reading :=
  [.chunk ((Message.encode dot).take 5), .fault ⟨.interrupted, "signal"⟩,
    .chunk ((Message.encode dot).drop 5), .fault reset, .chunk (Message.encode dot)]

theorem reads_independently_broken :
    (Carries whole (bytes whole) ∧ Carries (broken.eraseIdx 3) (bytes whole) ∧
      accounts 3 (ofLimit 25) (broken.eraseIdx 3) = accounts 3 (ofLimit 25) whole) ∧
    (∃ c ∈ calls 4 (ofLimit 25) broken,
      strike? c.stream = some reset ∧ c.step.result = .error (.io reset) ∧
        ((ofLimit 25).read c.stream).result = c.step.result) ∧
    (singly whole = undisturbed 4 (ofLimit 25) broken ∧
      accounts 3 (ofLimit 25) whole =
        ((calls 4 (ofLimit 25) broken).filter (!·.isStruck)).map fun c =>
          c.step.account (bytes broken).length) ∧
    ∀ x ∈ readEachOver 4 (ofLimit 25) [] broken, x.2.length ≤ 25 := by
  obtain ⟨hcut, hcall, hstruck, hbuffer⟩ := reads_independently (ofLimit 25)
  have hwhole : Carries whole (bytes whole) := ⟨by decide, rfl⟩
  have hparts : Carries (broken.eraseIdx 3) (bytes whole) := ⟨by decide, by decide⟩
  have hlive : ∀ r ∈ broken, r.IsLive := by decide
  have hsingly : singly whole = undisturbed 4 (ofLimit 25) broken := by decide +kernel
  have hthree : ((calls 4 (ofLimit 25) broken).filter (!·.isStruck)).length = 3 := by
    decide +kernel
  obtain ⟨-, haccounts⟩ := hstruck 4 broken whole hlive (fun r hr => (hwhole.steady r hr).isLive)
    hsingly
  simp only [hthree] at haccounts
  refine ⟨⟨hwhole, hparts, hcut _ _ _ hwhole hparts 3⟩, ?_, ⟨hsingly, haccounts⟩, ?_⟩
  · have hc : ∃ c ∈ calls 4 (ofLimit 25) broken, strike? c.stream = some reset := by
      decide +kernel
    obtain ⟨c, hmem, hc⟩ := hc
    obtain ⟨hfault, hhistory⟩ := hcall 4 broken c hmem
    exact ⟨c, hmem, hc, (hfault reset hc).1, (hhistory (ofLimit 25) rfl).1⟩
  · exact fun x hx => ((hbuffer 4 [] broken).2 rfl (Nat.zero_le _) x hx).2

end SampleCast.Decoder
