import Mathlib.Data.List.Forall2
import Mathlib.Data.List.Infix
import SampleCast.Proofs.Broadcast.Delivery
import SampleCast.Proofs.Producer.Tape

/-! Isolation.
Clients decide when the producer may go on, but not what it publishes: the blocks are those of the
tape of its source, and the clients only decide how much of the tape is played. Main statement:
`run_isolated`, on two courses over sources that give the same answers. Whatever else is different
in them, each generation has the same block in both, and two connections that asked for the same
channels have been sent the same bytes for it. -/

namespace SampleCast

variable {σ τ : Type} {source : SampleSource σ} {other : SampleSource τ} {station : Station} {s : σ}
  {t : τ}

theorem getElem?_of_isPrefix {α : Type} {xs ys : List α} (h : xs <+: ys) {i : Nat} {a : α}
    (ha : xs[i]? = some a) : ys[i]? = some a := by
  obtain ⟨hi, rfl⟩ := List.getElem?_eq_some_iff.mp ha
  exact List.prefix_iff_getElem?.mp h i hi

namespace SampleSource

theorem answers_isPrefix (source : SampleSource σ) (d : Demand) (s : σ) {m n : Nat} (h : m ≤ n) :
    source.answers d s m <+: source.answers d s n := by
  induction h with
  | refl => exact List.prefix_rfl
  | step _ ih =>
    rw [answers_succ]
    exact ih.trans (List.prefix_append _ _)

theorem answers_same {d : Demand} (h : ∀ k, (source.answer d s k).Same (other.answer d t k))
    (n : Nat) : List.Forall₂ Delivery.Same (source.answers d s n) (other.answers d t n) := by
  rw [answers, answers, List.forall₂_map_left_iff, List.forall₂_map_right_iff]
  exact List.forall₂_same.mpr fun k _ => h k

def blocks (source : SampleSource σ) (station : Station) (s : σ) (n : Nat) : List Frame :=
  (Tape.ofDeliveries station (source.answers station.demand s n)).frames

theorem blocks_isPrefix (source : SampleSource σ) (station : Station) (s : σ) {m n : Nat}
    (h : m ≤ n) : source.blocks station s m <+: source.blocks station s n := by
  obtain ⟨more, he⟩ := source.answers_isPrefix station.demand s h
  rw [blocks, blocks, ← he]
  exact Tape.frames_isPrefix_append _ _

theorem blocks_same
    (h : ∀ k, (source.answer station.demand s k).Same (other.answer station.demand t k)) (n : Nat) :
    source.blocks station s n = other.blocks station t n := by
  rw [blocks, blocks, Tape.ofDeliveries_same (answers_same h n)]

theorem eq_of_getElem?_blocks {m n i : Nat} {f g : Frame}
    (hf : (source.blocks station s m)[i]? = some f)
    (hg : (source.blocks station s n)[i]? = some g) : f = g := by
  have hfm := getElem?_of_isPrefix (source.blocks_isPrefix station s (Nat.le_max_left m n)) hf
  have hgm := getElem?_of_isPrefix (source.blocks_isPrefix station s (Nat.le_max_right m n)) hg
  exact Option.some.inj (hfm.symm.trans hgm)

end SampleSource

namespace Course

variable {r : Course σ} {r' : Course τ} {g : Nat} {f f' : Frame}

theorem getElem?_published (h : r.Publication station) (hb : r.block? g = some f) :
    (r.published.map (·.frame))[g - 1]? = some f := by
  obtain ⟨slot, hfind, rfl⟩ := Option.map_eq_some_iff.mp hb
  have hgen : slot.generation = g := by simpa using List.find?_some hfind
  obtain ⟨k, hk, he⟩ := List.getElem_of_mem (List.mem_of_find?_eq_some hfind)
  have hnumber : (r.published.map (·.generation))[k]? = some g := by
    rw [List.getElem?_map, List.getElem?_eq_getElem hk, he, Option.map_some, hgen]
  rw [h.generations] at hnumber
  obtain ⟨hlt, hg⟩ := List.getElem?_eq_some_iff.mp hnumber
  rw [List.getElem_range', Nat.one_mul] at hg
  have hindex : g - 1 = k := by omega
  rw [hindex, List.getElem?_map, List.getElem?_eq_getElem hk, he, Option.map_some]

theorem exists_getElem?_blocks (h : r.Publication station) (ht : r.Taped source station s)
    (hb : r.block? g = some f) : ∃ n, (source.blocks station s n)[g - 1]? = some f := by
  refine ⟨(r.deliveries source station).length, ?_⟩
  rw [SampleSource.blocks, ← ht.answers, ← ht.follows.frames]
  exact getElem?_of_isPrefix (List.prefix_append _ _) (getElem?_published h hb)

theorem block?_unique (h : r.Publication station) (ht : r.Taped source station s)
    (h' : r'.Publication station) (ht' : r'.Taped other station t)
    (hsame : ∀ k, (source.answer station.demand s k).Same (other.answer station.demand t k))
    (hb : r.block? g = some f) (hb' : r'.block? g = some f') : f = f' := by
  obtain ⟨m, hm⟩ := exists_getElem?_blocks h ht hb
  obtain ⟨n, hn⟩ := exists_getElem?_blocks h' ht' hb'
  rw [← SampleSource.blocks_same hsame] at hn
  exact SampleSource.eq_of_getElem?_blocks hm hn

/-- Cuts bytes into the messages of the frames that were queued, each with its generation, as far as
they are there whole. -/
def messages : List (Nat × Frame) → List UInt8 → List (Nat × List UInt8)
  | [], _ => []
  | (g, f) :: more, bytes =>
    let size := (Message.encode f).length
    if bytes.length < size then [] else (g, bytes.take size) :: messages more (bytes.drop size)

/-- The generations that the client's side of connection `i` has taken whole, and the bytes that it
has taken for them. -/
def received (station : Station) (r : Course σ) (i : Nat) : List (Nat × List UInt8) :=
  match r.present.connections[i]? with
  | none => []
  | some c => messages (r.queued i) (c.output.drop (Reply.encode ⟨station.rate⟩).length)

theorem eq_encode_of_mem_messages {queued : List (Nat × Frame)} {bytes message : List UInt8}
    (hb : bytes <+: (queued.map (·.2)).flatMap Message.encode)
    (hm : (g, message) ∈ messages queued bytes) :
    ∃ f, (g, f) ∈ queued ∧ message = Message.encode f := by
  induction queued generalizing bytes with
  | nil => cases hm
  | cons entry queued ih =>
    obtain ⟨g₁, f₁⟩ := entry
    rw [List.map_cons, List.flatMap_cons] at hb
    rw [messages] at hm
    split_ifs at hm with hshort
    · cases hm
    · have htake : bytes.take (Message.encode f₁).length = Message.encode f₁ := by
        rw [List.prefix_iff_eq_take.mp hb, List.take_take,
          Nat.min_eq_left (Nat.not_lt.mp hshort), List.take_left]
      have hdrop : bytes.drop (Message.encode f₁).length <+:
          (queued.map (·.2)).flatMap Message.encode := by
        have h := hb.drop (Message.encode f₁).length
        rwa [List.drop_left] at h
      rcases List.mem_cons.mp hm with hm | hm
      · obtain ⟨rfl, rfl⟩ := Prod.mk.inj hm
        exact ⟨f₁, List.mem_cons_self, htake⟩
      · obtain ⟨f, hf, he⟩ := ih hdrop hm
        exact ⟨f, List.mem_cons_of_mem _ hf, he⟩

theorem eq_encode_of_mem_received {i : Nat} {message : List UInt8} (h : r.Serves station i)
    (hm : (g, message) ∈ r.received station i) :
    ∃ f, (g, f) ∈ r.queued i ∧ message = Message.encode f := by
  unfold received at hm
  cases hc : r.present.connections[i]? with
  | none =>
    rw [hc] at hm
    cases hm
  | some c =>
    rw [hc] at hm
    refine eq_encode_of_mem_messages ?_ hm
    have hout := (h.flow c hc).output_isPrefix.drop (Reply.encode ⟨station.rate⟩).length
    rwa [List.drop_left] at hout

/-- What a connection received for a generation is the message of the requested channels of its
block. -/
theorem isSelection_of_mem_received {i : Nat} {seat : Seat} {message : List UInt8}
    (h : r.Serves station i) (hj : r.joined? i = some seat)
    (hm : (g, message) ∈ r.received station i) :
    ∃ f, IsSelection r.block? seat.channels g f ∧ message = Message.encode f := by
  obtain ⟨f, hf, he⟩ := eq_encode_of_mem_received h hm
  cases hc : r.present.connections[i]? with
  | none =>
    rw [(h.absent hc).2] at hf
    cases hf
  | some c => exact ⟨f, ((h.ledger c hc).since seat hj).selected g f hf, he⟩

theorem run_isolated (source : SampleSource σ) (other : SampleSource τ) (station : Station) (s : σ)
    (t : τ) (hsame : ∀ k, (source.answer station.demand s k).Same (other.answer station.demand t k))
    (schedule schedule' : List Broadcast.Action) :
    let r := run source station s schedule
    let r' := run other station t schedule'
    (∀ g f f', r.block? g = some f → r'.block? g = some f' → f = f') ∧
    ∀ i j seat seat', r.joined? i = some seat → r'.joined? j = some seat' →
      seat.channels = seat'.channels → ∀ g message message',
        (g, message) ∈ r.received station i → (g, message') ∈ r'.received station j →
          message = message' := by
  intro r r'
  obtain ⟨hpub, hserves⟩ : r.Publication station ∧ ∀ i, r.Serves station i := serves schedule
  obtain ⟨hpub', hserves'⟩ : r'.Publication station ∧ ∀ i, r'.Serves station i := serves schedule'
  have hblocks : ∀ g f f', r.block? g = some f → r'.block? g = some f' → f = f' :=
    fun _ _ _ => block?_unique hpub (taped schedule) hpub' (taped schedule') hsame
  refine ⟨hblocks, ?_⟩
  intro i j seat seat' hi hj hchannels g message message' hm hm'
  obtain ⟨f, ⟨block, hblock, hselect⟩, rfl⟩ := isSelection_of_mem_received (hserves i) hi hm
  obtain ⟨f', ⟨block', hblock', hselect'⟩, rfl⟩ := isSelection_of_mem_received (hserves' j) hj hm'
  cases hblocks g block block' hblock hblock'
  rw [← hchannels, hselect] at hselect'
  rw [Option.some.inj hselect']

def ramp (last : UInt64) : SampleSource UInt64 where
  channelCount := 2
  rate := 1000
  acquire n _ := (⟨.ok 1, [n, n + 1], [true, false], n == last⟩, n + 2)

theorem ramp_same (a b : UInt64) (d : Demand) (k : Nat) :
    ((ramp a).answer d 0 k).Same ((ramp b).answer d 0 k) := by
  have hafter : (ramp a).after d 0 k = (ramp b).after d 0 k := by
    induction k with
    | zero => rfl
    | succ k ih => exact congrArg (· + 2) ih
  exact ⟨rfl, congrArg (fun n : UInt64 => [n, n + 1]) hafter, rfl⟩

open Broadcast.Action in
def crowded : List Broadcast.Action :=
  [look, arrive [.chunk [0, 0]], look, arrive [.chunk [0, 0, 0, 1], .chunk [0, 0, 0, 1]]] ++
    List.replicate 8 (feed 1 (.upTo 17)) ++ List.replicate 4 produce ++
    List.replicate 4 (feed 1 (.upTo 1)) ++ [feed 0 (.upTo 3)] ++
    List.replicate 5 (send 1 (.upTo 20)) ++ [stop, produce]

theorem run_isolated_ramp :
    let r := run (ramp 2) Broadcast.pulseStation 0 twoBlocks
    let r' := run (ramp 4) Broadcast.pulseStation 0 crowded
    ∃ f message, r.block? 1 = some f ∧ r'.block? 1 = some f ∧
      (1, message) ∈ r.received Broadcast.pulseStation 0 ∧
      (1, message) ∈ r'.received Broadcast.pulseStation 1 := by
  intro r r'
  obtain ⟨hblocks, hmessages⟩ := run_isolated (ramp 2) (ramp 4) Broadcast.pulseStation 0 0
    (ramp_same 2 4 _) twoBlocks crowded
  have hj : r.joined? 0 = some ⟨1, [1], 0, 0⟩ := by decide +kernel
  have hj' : r'.joined? 1 = some ⟨1, [1], 0, 0⟩ := by decide +kernel
  obtain ⟨f, hf⟩ : ∃ f, r.block? 1 = some f := Option.isSome_iff_exists.mp (by decide +kernel)
  obtain ⟨f', hf'⟩ : ∃ f, r'.block? 1 = some f := Option.isSome_iff_exists.mp (by decide +kernel)
  have hm : (r.received Broadcast.pulseStation 0).map (·.1) = [1] := by decide +kernel
  have hm' : (r'.received Broadcast.pulseStation 1).map (·.1) = [1] := by decide +kernel
  obtain ⟨⟨_, message⟩, hmem, rfl⟩ := List.mem_map.mp (hm ▸ List.mem_singleton_self 1)
  obtain ⟨⟨_, message'⟩, hmem', rfl⟩ := List.mem_map.mp (hm' ▸ List.mem_singleton_self 1)
  cases hblocks _ f f' hf hf'
  cases hmessages 0 1 _ _ hj hj' rfl _ message message' hmem hmem'
  exact ⟨f, message, hf, hf', hmem, hmem'⟩

end Course
end SampleCast
