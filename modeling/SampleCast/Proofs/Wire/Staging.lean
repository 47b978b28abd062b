import Mathlib.Data.List.Forall2
import SampleCast.Proofs.Stream.Writer
import SampleCast.Proofs.Wire.InPlace

/-! Messages through one staging buffer.
A desk has a buffer, in which every message is staged in place, and a sink, which takes what is
written to it. Both are shared by all messages, and a message that could not be written whole is
given up for the next. `Sink.writeAll` is the loop around the single writes. Main statements:
`Sink.writeAll_eq`, that the loop hands over what `writeAll` says, and `Desk.posts_apart`, that the
sink has taken message after message, each whole if it was written and a proper beginning of it if
not, and that nothing is left of a message in the buffer when the next is staged. -/

namespace SampleCast

def Acceptance.stop? : Acceptance → Option Fault
  | .upTo 0 => some .shortWrite
  | .upTo (_ + 1) => none
  | .fault f => if f.isRetried then none else some f

theorem Acceptance.stop?_eq (a : Acceptance) (pending : List UInt8) :
    a.stop? = match a.settle pending with | .broken f => some f | .more .. => none := by
  cases a with
  | upTo n => cases n <;> rfl
  | fault f =>
    simp only [stop?, settle]
    split_ifs <;> rfl

theorem writeAll_stops (bytes : List UInt8) (peer : List Acceptance) :
    ∃ used, peer = used ++ (writeAll bytes peer).rest ∧
      used.filterMap Acceptance.stop? = (writeAll bytes peer).fault.toList := by
  induction peer generalizing bytes with
  | nil => cases bytes <;> exact ⟨[], rfl, rfl⟩
  | cons a peer ih =>
    cases bytes with
    | nil => exact ⟨[], rfl, rfl⟩
    | cons b bs =>
      have hstop := a.stop?_eq (b :: bs)
      cases ha : a.settle (b :: bs) with
      | broken f =>
        simp only [ha] at hstop
        simp only [writeAll, ha]
        exact ⟨[a], rfl, by rw [List.filterMap_cons_some hstop]; rfl⟩
      | more taken left =>
        simp only [ha] at hstop
        simp only [writeAll, ha]
        obtain ⟨used, hpeer, hfault⟩ := ih left
        exact ⟨a :: used, congrArg (a :: ·) hpeer, by rw [List.filterMap_cons_none hstop, hfault]⟩

/-- What takes the bytes of a writer. Beyond the writes of which the list tells how they are met, it
takes everything. -/
structure Sink where
  accepted : List UInt8 := []
  coming : List Acceptance := []
  deriving DecidableEq, Inhabited

namespace Sink

def write (sink : Sink) (bytes : List UInt8) : Except Fault Nat × Sink :=
  match sink.coming with
  | [] => (.ok bytes.length, ⟨sink.accepted ++ bytes, []⟩)
  | .upTo n :: coming => (.ok (bytes.take n).length, ⟨sink.accepted ++ bytes.take n, coming⟩)
  | .fault f :: coming => (.error f, ⟨sink.accepted, coming⟩)

theorem coming_write_le {sink sink' : Sink} {bytes : List UInt8} {r : Except Fault Nat}
    (h : sink.write bytes = (r, sink')) : sink'.coming.length ≤ sink.coming.length := by
  unfold write at h
  split at h <;> rename_i hc <;> cases h <;> simp [hc]

theorem coming_write_lt {sink sink' : Sink} {bytes : List UInt8} {f : Fault}
    (h : sink.write bytes = (.error f, sink')) : sink'.coming.length < sink.coming.length := by
  unfold write at h
  split at h
  · cases h
  · cases h
  · rename_i hc
    cases h
    rw [hc]
    exact Nat.lt_succ_self _

def writeAll (sink : Sink) (bytes : List UInt8) : Option Fault × Sink :=
  if _hb : bytes = [] then (none, sink)
  else
    match hw : sink.write bytes with
    | (.ok 0, sink') => (some .shortWrite, sink')
    | (.ok (n + 1), sink') => sink'.writeAll (bytes.drop (n + 1))
    | (.error f, sink') => if f.isRetried then sink'.writeAll bytes else (some f, sink')
termination_by bytes.length + sink.coming.length
decreasing_by
  · have hlen : 0 < bytes.length := List.length_pos_iff.mpr _hb
    have hle := coming_write_le hw
    rw [List.length_drop]
    omega
  · have hlt := coming_write_lt hw
    omega

@[simp] theorem writeAll_nil (sink : Sink) : sink.writeAll [] = (none, sink) := by
  rw [writeAll, dif_pos rfl]

section loop

variable {sink sink' : Sink} {bytes : List UInt8} {n : Nat} {f : Fault}

theorem writeAll_of_none (hb : bytes ≠ []) (hw : sink.write bytes = (.ok 0, sink')) :
    sink.writeAll bytes = (some .shortWrite, sink') := by
  rw [writeAll, dif_neg hb]
  split <;> simp_all

theorem writeAll_of_some (hb : bytes ≠ []) (hw : sink.write bytes = (.ok (n + 1), sink')) :
    sink.writeAll bytes = sink'.writeAll (bytes.drop (n + 1)) := by
  rw [writeAll, dif_neg hb]
  split <;> simp_all

theorem writeAll_of_error (hb : bytes ≠ []) (hw : sink.write bytes = (.error f, sink')) :
    sink.writeAll bytes = if f.isRetried then sink'.writeAll bytes else (some f, sink') := by
  rw [writeAll, dif_neg hb]
  split <;> simp_all

end loop

theorem writeAll_eq (sink : Sink) (bytes : List UInt8) :
    sink.writeAll bytes =
      ((SampleCast.writeAll bytes sink.coming).fault,
        ⟨sink.accepted ++ (SampleCast.writeAll bytes sink.coming).taken,
          (SampleCast.writeAll bytes sink.coming).rest⟩) := by
  obtain ⟨accepted, coming⟩ := sink
  induction coming generalizing accepted bytes with
  | nil =>
    rcases bytes with _ | ⟨b, bs⟩
    · simp [SampleCast.writeAll]
    · rw [writeAll_of_some (List.cons_ne_nil b bs) rfl, ← List.length_cons, List.drop_length,
        writeAll_nil]
      rfl
  | cons a coming ih =>
    rcases bytes with _ | ⟨b, bs⟩
    · simp [SampleCast.writeAll]
    · rcases a with (_ | n) | f
      · rw [writeAll_of_none (List.cons_ne_nil b bs) rfl]
        simp [SampleCast.writeAll, Acceptance.settle]
      · have hdrop : (b :: bs).drop ((bs.take n).length + 1) = (b :: bs).drop (n + 1) := by simp
        rw [writeAll_of_some (List.cons_ne_nil b bs) rfl, hdrop, ih]
        simp [SampleCast.writeAll, Acceptance.settle]
      · rw [writeAll_of_error (List.cons_ne_nil b bs) rfl, ih]
        cases hf : f.isRetried <;> simp [SampleCast.writeAll, Acceptance.settle, hf]

end Sink

namespace Message

def Sent.fault? (s : Sent) : Option Fault :=
  match s.result with
  | .ok _ => none
  | .error f => some f

def Sent.ofWritten (f : Frame) (w : Written) : Sent :=
  ⟨match w.fault with | some e => .error e | none => .ok (encode f).length, encode f, w.taken,
    w.rest⟩

structure Stages (f : Frame) (s : Sent) : Prop where
  staged : s.staged = encode f
  whole : ∀ n, s.result = .ok n → n = (encode f).length ∧ s.taken = encode f
  part : ∀ e, s.result = .error e → s.taken <+: encode f ∧ s.taken ≠ encode f

theorem fault?_ofWritten (f : Frame) (w : Written) : (Sent.ofWritten f w).fault? = w.fault := by
  obtain ⟨taken, _ | e, rest⟩ := w <;> rfl

theorem stages_ofWritten {f : Frame} {w : Written} (h : w.Conveys (encode f)) :
    Stages f (Sent.ofWritten f w) := by
  obtain ⟨taken, fault, rest⟩ := w
  cases fault with
  | none =>
    refine ⟨rfl, ?_, nofun⟩
    rintro n hn
    cases hn
    exact ⟨rfl, h.taken_eq rfl⟩
  | some e => exact ⟨rfl, nofun, fun _ _ => h.taken_prefix rfl⟩

theorem write_eq (f : Frame) (staging : List UInt8) (peer : List Acceptance) :
    write f staging peer = .ofWritten f (writeAll (encode f) peer) := by
  rw [write, List.take_zero, append_eq, List.nil_append]
  rfl

end Message

structure Desk where
  staging : List UInt8 := []
  sink : Sink := {}
  deriving DecidableEq, Inhabited

namespace Desk

/-- Clears the buffer, fills it in place and writes it, or `none` if a place does not fit. -/
def post? (d : Desk) (f : Frame) : Option (Except Fault Nat × Desk) := do
  let staging ← Message.append? f (d.staging.take 0)
  match d.sink.writeAll staging with
  | (some e, sink) => some (.error e, ⟨staging, sink⟩)
  | (none, sink) => some (.ok staging.length, ⟨staging, sink⟩)

def postEach? (d : Desk) : List Frame → Option (List (Except Fault Nat) × Desk)
  | [] => some ([], d)
  | f :: more => do
    let (result, d) ← d.post? f
    let (results, d) ← d.postEach? more
    some (result :: results, d)

/-- What has become of the frames when they have all been posted. The script of the sink is used up
to some place, and each fault in it was met by one frame. -/
structure Posted (d d' : Desk) (frames : List Frame) (sents : List Message.Sent) : Prop where
  output : d'.sink.accepted = d.sink.accepted ++ sents.flatMap (·.taken)
  staging : d'.staging = (frames.getLast?.map Message.encode).getD d.staging
  each : List.Forall₂ Message.Stages frames sents
  script : ∃ used, d.sink.coming = used ++ d'.sink.coming ∧
    used.filterMap Acceptance.stop? = sents.filterMap (·.fault?)

theorem post?_eq {f : Frame} (hf : f.WellShaped) (d : Desk) :
    let s := Message.write f d.staging d.sink.coming
    d.post? f = some (s.result, ⟨s.staged, d.sink.accepted ++ s.taken, s.rest⟩) := by
  have happend : Message.append? f (d.staging.take 0) = some (Message.encode f) := by
    rw [Message.append?_eq hf, Message.append_eq, List.take_zero, List.nil_append]
  rw [Message.write_eq, post?, happend]
  simp only [Option.bind_eq_bind, Option.bind_some, Sink.writeAll_eq]
  obtain ⟨taken, _ | e, rest⟩ := writeAll (Message.encode f) d.sink.coming <;> rfl

theorem Posted.nil (d : Desk) : Posted d d [] [] :=
  ⟨(List.append_nil _).symm, rfl, .nil, [], rfl, rfl⟩

theorem Posted.cons {d d' : Desk} {f : Frame} {frames : List Frame} {sents : List Message.Sent}
    (s : Message.Sent) (hs : s = Message.write f d.staging d.sink.coming)
    (h : Posted ⟨s.staged, d.sink.accepted ++ s.taken, s.rest⟩ d' frames sents) :
    Posted d d' (f :: frames) (s :: sents) := by
  rw [Message.write_eq] at hs
  have hstages : Message.Stages f s := hs ▸ Message.stages_ofWritten (writeAll_conveys ..)
  constructor
  case output => rw [h.output, List.flatMap_cons, List.append_assoc]
  case staging =>
    rw [h.staging, hstages.staged, List.getLast?_cons, Option.map_some, Option.getD_some,
      Option.getD_map]
  case each => exact .cons hstages h.each
  case script =>
    obtain ⟨first, hfirst, hfault⟩ := writeAll_stops (Message.encode f) d.sink.coming
    obtain ⟨later, hlater, hfaults⟩ := h.script
    have hrest : s.rest = (writeAll (Message.encode f) d.sink.coming).rest := by
      rw [hs]
      rfl
    have hone : s.fault? = (writeAll (Message.encode f) d.sink.coming).fault := by
      rw [hs, Message.fault?_ofWritten]
    refine ⟨first ++ later, ?_, ?_⟩
    · rw [List.append_assoc, ← hlater, hrest, ← hfirst]
    · rw [List.filterMap_append, hfault, hfaults, ← hone]
      cases hf : s.fault? <;> simp [hf]

theorem posts_apart (d : Desk) (frames : List Frame) (hf : ∀ f ∈ frames, f.WellShaped) :
    ∃ d' sents, sents = Message.writeEach frames d.staging d.sink.coming ∧
      d.postEach? frames = some (sents.map (·.result), d') ∧ Posted d d' frames sents ∧
      ∀ staging, Message.writeEach frames staging d.sink.coming = sents := by
  induction frames generalizing d with
  | nil => exact ⟨d, [], rfl, rfl, .nil d, fun _ => rfl⟩
  | cons f frames ih =>
    obtain ⟨hfirst, hmore⟩ := List.forall_mem_cons.mp hf
    obtain ⟨d', sents, hsents, hpost, hposted, -⟩ :=
      ih ⟨(Message.write f d.staging d.sink.coming).staged,
        d.sink.accepted ++ (Message.write f d.staging d.sink.coming).taken,
        (Message.write f d.staging d.sink.coming).rest⟩ hmore
    refine ⟨d', Message.write f d.staging d.sink.coming :: sents, ?_, ?_, hposted.cons _ rfl, ?_⟩
    · rw [hsents, Message.writeEach]
    · simp only [postEach?, post?_eq hfirst, Option.bind_eq_bind, Option.bind_some, hpost,
        List.map_cons]
    · intro staging
      rw [hsents, Message.writeEach, Message.write_eq f staging, Message.write_eq f d.staging]

def wide : Frame := ⟨1, 2, 1, [5, 6], [true, false]⟩

def narrow : Frame := ⟨2, 1, 1, [7], [true]⟩

def usedDesk : Desk :=
  ⟨[1, 2, 3],
    ⟨[255], [.upTo 4, .fault ⟨.interrupted, "interrupted"⟩, .upTo 0, .upTo 2,
      .fault ⟨.interrupted, "interrupted"⟩]⟩⟩

theorem posts_apart_usedDesk :
    ∃ d', usedDesk.postEach? [wide, narrow] =
        some ([.error .shortWrite, .ok (Message.encode narrow).length], d') ∧
      d'.staging = Message.encode narrow ∧
      d'.sink.accepted =
        [255] ++ ((Message.encode wide).take 4 ++ Message.encode narrow) := by
  obtain ⟨d', sents, hsents, hpost, hposted, -⟩ :=
    posts_apart usedDesk [wide, narrow] (by decide)
  have hresults : sents.map (·.result) =
      [.error .shortWrite, .ok (Message.encode narrow).length] := by
    rw [hsents]
    rfl
  have htaken : sents.flatMap (·.taken) =
      (Message.encode wide).take 4 ++ Message.encode narrow := by
    rw [hsents]
    rfl
  refine ⟨d', by rw [hpost, hresults], hposted.staging, ?_⟩
  rw [hposted.output, htaken]
  rfl

end Desk
end SampleCast
