import SampleCast.Proofs.Broadcast.Agreement
import SampleCast.Proofs.Frame

/-! What a server publishes.
The producer publishes the generations from one on, each once, and the block in the slot is the last
one published. Every block fills its stated shape, because the buffers always have room for a full
block and the producer refuses more points than it asked for. -/

namespace SampleCast

variable {σ : Type} {source : SampleSource σ} {station : Station} {s : σ}

namespace Producer

structure Filled (station : Station) (p : Producer σ) : Prop where
  analog : p.analog.length = station.channelCount.toNat * station.settings.pointsPerChannel.toNat
  digital : p.digital.length = station.channelCount.toNat * station.settings.pointsPerChannel.toNat
  bounded : ∀ points, p.phase = .publishing points → points ≤ station.settings.pointsPerChannel

theorem filled_start : (start station s).Filled station :=
  ⟨List.length_replicate .., List.length_replicate .., nofun⟩

theorem le_of_judge {r : Except SourceError UInt32} {points : UInt32}
    (h : judge station r = .publishing points) : points ≤ station.settings.pointsPerChannel := by
  unfold judge at h
  cases r with
  | error e => cases h
  | ok n =>
    simp only at h
    split_ifs at h with hlt
    cases h
    exact UInt32.not_lt.mp hlt

theorem Step.filled {hub hub' : Hub} {p p' : Producer σ}
    (h : Step source station hub p hub' p') (hp : p.Filled station) : p'.Filled station := by
  cases h with
  | acquire hc hd =>
    refine ⟨?_, ?_, fun points hpub => le_of_judge hpub⟩
    · simpa [receive] using hp.analog
    · simpa [receive] using hp.digital
  | _ => exact ⟨hp.analog, hp.digital, nofun⟩

theorem Filled.wellShaped_block {p : Producer σ} {points : UInt32} (h : p.Filled station)
    (hp : p.phase = .publishing points) : (p.block station points).WellShaped := by
  have hle : station.channelCount.toNat * points.toNat ≤
      station.channelCount.toNat * station.settings.pointsPerChannel.toNat :=
    Nat.mul_le_mul_left _ (UInt32.le_iff_toNat_le.mp (h.bounded points hp))
  exact Frame.wellShaped_ofBuffers (h.analog ▸ hle) (h.digital ▸ hle)

end Producer

namespace Broadcast

variable {b b' : Broadcast σ}

/-- The slot is written by the producer alone, when it publishes. -/
theorem Step.slot (h : Step source station b b') (a : Action) :
    (b'.hub.slot = b.hub.slot ∧ Moment.published? ⟨b, a, b'⟩ = none) ∨
    ∃ points, b.producer.phase = .publishing points ∧
      b'.hub.slot = ⟨b.hub.barrier.generation + 1, b.producer.block station points⟩ ∧
      Moment.published? ⟨b, a, b'⟩ = some b'.hub.slot := by
  have idle : b'.producer = b.producer → Moment.published? ⟨b, a, b'⟩ = none := by
    intro hp
    simp only [Moment.published?, hp]
    cases b.producer.phase <;> rfl
  cases h with
  | @produce hub p hp =>
    cases hp with
    | publish hp => exact .inr ⟨_, hp, rfl, by simp only [Moment.published?, hp]⟩
    | acquire hp hd =>
      refine .inl ⟨?_, by simp only [Moment.published?, hp]⟩
      change (if _ then b.hub.stop else b.hub).slot = b.hub.slot
      split_ifs <;> rfl
    | halt hp | ready hp | advance hp | fail hp =>
      exact .inl ⟨rfl, by simp only [Moment.published?, hp]⟩
  | feed hc hf => exact .inl ⟨hf.slot, idle rfl⟩
  | send hc hs => exact .inl ⟨hs.slot, idle rfl⟩
  | look => exact .inl ⟨rfl, idle rfl⟩
  | arrive => exact .inl ⟨rfl, idle rfl⟩
  | stop => exact .inl ⟨rfl, idle rfl⟩

theorem Step.filled (h : Step source station b b') (hb : b.producer.Filled station) :
    b'.producer.Filled station := by
  cases h with
  | produce hp => exact hp.filled hb
  | _ => exact hb

end Broadcast

namespace Course

structure Publication (station : Station) (r : Course σ) : Prop where
  agreement : Broadcast.Agreement station r.present
  filled : r.present.producer.Filled station
  generations : r.published.map (·.generation) = List.range' 1 r.present.hub.slot.generation
  current : 0 < r.present.hub.slot.generation →
    r.block? r.present.hub.slot.generation = some r.present.hub.slot.frame
  shaped : ∀ slot ∈ r.published, slot.frame.WellShaped

variable {r : Course σ} {g : Nat} {frame : Frame}

theorem wellShaped_of_block? (h : r.Publication station) (hb : r.block? g = some frame) :
    frame.WellShaped := by
  obtain ⟨slot, hf, rfl⟩ := Option.map_eq_some_iff.mp hb
  exact h.shaped slot (List.mem_of_find?_eq_some hf)

theorem block?_eq_none (h : r.Publication station) (hg : r.present.hub.slot.generation < g) :
    r.block? g = none := by
  rw [block?, Option.map_eq_none_iff, List.find?_eq_none]
  intro slot hslot
  have hmem : slot.generation ∈ r.published.map (·.generation) := List.mem_map_of_mem hslot
  rw [h.generations, List.mem_range'_1] at hmem
  simp only [decide_eq_true_eq]
  omega

theorem block?_mono {m : Moment σ} {b : Broadcast σ} (hm : m.before = r.present)
    (hb : r.block? g = some frame) : block? ⟨r.past ++ [m], b⟩ g = some frame := by
  rw [block?_concat, hm]
  change (r.block? g).or _ = _
  rw [hb, Option.some_or]

theorem Publication.start : Publication station { present := .start station s : Course σ } :=
  ⟨.start, Producer.filled_start, rfl, fun h => absurd h (Nat.lt_irrefl 0), nofun⟩

theorem Publication.step (h : r.Publication station) {a : Broadcast.Action} {b : Broadcast σ}
    (hs : Broadcast.Step source station r.present b) :
    Publication station ⟨r.past ++ [⟨r.present, a, b⟩], b⟩ := by
  have hpublished : published ⟨r.past ++ [⟨r.present, a, b⟩], b⟩ =
      r.published ++ (Moment.published? ⟨r.present, a, b⟩).toList := published_concat
  rcases hs.slot a with ⟨hslot, hnone⟩ | ⟨points, hphase, hslot, hsome⟩
  · rw [hnone, Option.toList_none, List.append_nil] at hpublished
    refine ⟨h.agreement.step hs, hs.filled h.filled, ?_, ?_, ?_⟩
    · rw [hpublished, hslot]
      exact h.generations
    · rw [hslot]
      exact fun hg => block?_mono rfl (h.current hg)
    · rw [hpublished]
      exact h.shaped
  · rw [hsome, Option.toList_some, hslot] at hpublished
    have hlead : r.present.hub.slot.generation = r.present.hub.barrier.generation := by
      rw [h.agreement.slot, hphase]
      rfl
    refine ⟨h.agreement.step hs, hs.filled h.filled, ?_, ?_, ?_⟩
    · rw [hpublished, List.map_append, h.generations, hslot, hlead, List.range'_1_concat,
        Nat.add_comm 1]
      rfl
    · intro _
      have hnew : r.block? (r.present.hub.barrier.generation + 1) = none :=
        block?_eq_none h (by omega)
      rw [block?_concat, hsome, hslot]
      change (r.block? _).or _ = _
      rw [hnew]
      simp
    · rw [hpublished]
      intro slot hmem
      rcases List.mem_append.mp hmem with hmem | hmem
      · exact h.shaped slot hmem
      · rw [List.mem_singleton.mp hmem]
        exact h.filled.wellShaped_block hphase

theorem publication (schedule : List Broadcast.Action) :
    Publication station (run source station s schedule) :=
  run_induction .start (fun _ _ _ h hs => h.step hs) schedule

end Course
end SampleCast
