import SampleCast.Proofs.Producer.Script
import SampleCast.Proofs.Producer.Time

/-! The time of what is published.
A course publishes the tape of its source, and so the stamps of its blocks are those of the tape,
whoever is connected and whatever is done between two blocks. No lengths are out of reach: four
actions of a producer without clients publish a block of any length that the settings allow. Main
statement: `run_keeps_time`. -/

namespace SampleCast

def Delivery.ofLength (length : UInt32) : Delivery := { result := .ok length }

variable {station : Station}

theorem Delivery.pos_of_block? {d : Delivery} {points : UInt32}
    (h : d.block? station = some points) : 0 < points := by
  unfold Delivery.block? at h
  cases hd : d.result with
  | error e => simp [hd] at h
  | ok n =>
    simp only [hd] at h
    split_ifs at h with hn
    cases h
    exact hn.1

namespace Course

section

variable {σ : Type} {source : SampleSource σ} {s : σ} {r : Course σ}

def lengths (r : Course σ) : List UInt32 := r.published.map (·.frame.pointsPerChannel)

def times (r : Course σ) : List UInt64 := r.published.map (·.frame.timestamp)

theorem Taped.lengths_isPrefix (h : r.Taped source station s) :
    r.lengths <+: (r.deliveries source station).filterMap (·.block? station) := by
  have hprefix : r.published.map (·.frame) <+:
      (Tape.ofDeliveries station (r.deliveries source station)).frames := ⟨_, h.follows.frames⟩
  have hlengths := hprefix.map (·.pointsPerChannel)
  rwa [List.map_map, Tape.lengths_frames] at hlengths

theorem Taped.lengths_pos (h : r.Taped source station s) : ∀ length ∈ r.lengths, 0 < length := by
  intro length hlength
  obtain ⟨d, -, hd⟩ := List.mem_filterMap.mp (h.lengths_isPrefix.subset hlength)
  exact Delivery.pos_of_block? hd

theorem Taped.times_eq (h : r.Taped source station s) :
    r.times = stamps station.rate 0 r.lengths := by
  have hstamps := (@Tape.stamps_frames (r.deliveries source station) station).2
  rw [← h.follows.frames, List.map_append, List.map_append, List.map_map, List.map_map,
    stamps_append] at hstamps
  refine (List.append_inj hstamps ?_).1
  rw [length_stamps, List.length_map, List.length_map]

def produced (r : Course σ) (hub : Hub) (p : Producer σ) : Course σ :=
  let b := { r.present with hub, producer := p }
  ⟨r.past ++ [⟨r.present, .produce, b⟩], b⟩

theorem act_produce {hub : Hub} {p : Producer σ}
    (h : r.present.producer.step source station r.present.hub = some (hub, p)) :
    act source station r .produce = r.produced hub p := by
  simp only [act, Broadcast.step, h]
  rfl

theorem producer_produced {hub : Hub} {p : Producer σ} :
    (r.produced hub p).present.producer = p := rfl

theorem lengths_produced {hub : Hub} {p : Producer σ} :
    (r.produced hub p).lengths = r.lengths ++
      match r.present.producer.phase, p.phase with
      | .publishing _, .opening .. => [hub.slot.frame.pointsPerChannel]
      | _, _ => [] := by
  rw [lengths, produced, published_concat, List.map_append]
  refine congrArg (r.lengths ++ ·) ?_
  unfold Moment.published?
  cases r.present.producer.phase <;> cases p.phase <;> rfl

end

structure Idle (rest : List Delivery) (r : Course (List Delivery)) : Prop where
  phase : r.present.producer.phase = .awaiting
  script : r.present.producer.source = rest
  members : r.present.hub.barrier.members = []
  stopped : r.present.hub.barrier.stopped = false

variable {channels rate length : UInt32} {rest : List Delivery} {r : Course (List Delivery)}

theorem Idle.publish (h : Idle (.ofLength length :: rest) r) (hpos : 0 < length)
    (hle : length ≤ station.settings.pointsPerChannel) :
    let r' := (List.replicate 4 .produce).foldl (act (.scripted channels rate) station) r
    Idle rest r' ∧ r'.lengths = r.lengths ++ [length] := by
  let hub := r.present.hub
  let calling : Producer (List Delivery) := { r.present.producer with phase := .acquiring }
  let loaded := calling.receive station (.ofLength length) rest
  let frame := loaded.block station length
  let shown := hub.publish (hub.barrier.generation + 1) frame
  let opening := { loaded with phase := .opening length frame.timestamp }
  have hready : r.present.producer.step (.scripted channels rate) station hub =
      some (hub, calling) := by
    simp [Producer.step, h.phase, Barrier.readiness, hub, h.stopped, Barrier.isReady, h.members,
      calling]
  have hcall : calling.step (.scripted channels rate) station hub = some (hub, loaded) := by
    simp only [Producer.step, SampleSource.scripted, calling, h.script]
    rfl
  have hloaded : loaded.phase = .publishing length := by
    have hlt : ¬ station.settings.pointsPerChannel < length := UInt32.not_lt.mpr hle
    have h0 : length ≠ 0 := UInt32.pos_iff_ne_zero.mp hpos
    change Producer.judge station (.ok length) = _
    simp only [Producer.judge, if_neg hlt, if_neg h0]
  have hpublish : loaded.step (.scripted channels rate) station hub = some (shown, opening) := by
    simp only [Producer.step, hloaded, shown, frame, opening]
  have hfour : (List.replicate 4 .produce).foldl (act (.scripted channels rate) station) r =
      (((r.produced hub calling).produced hub loaded).produced shown opening).produced
        (shown.advance.record .published)
        { opening with
          stats := Producer.countBlock opening.stats length frame.timestamp
          phase := .awaiting } := by
    change act _ _ (act _ _ (act _ _ (act _ _ r .produce) .produce) .produce) .produce = _
    rw [act_produce hready, act_produce (r := r.produced hub calling) hcall,
      act_produce (r := (r.produced hub calling).produced hub loaded) hpublish]
    exact act_produce rfl
  rw [hfour]
  constructor
  · refine ⟨rfl, rfl, ?_, h.stopped⟩
    simp [produced, shown, hub, Hub.publish, Hub.advance, Hub.record, Barrier.reset, h.members]
  · rw [lengths_produced, lengths_produced, lengths_produced, lengths_produced]
    simp only [producer_produced, h.phase, hloaded, calling, opening, List.append_nil]
    rfl

theorem Idle.publishAll {lengths : List UInt32} (h : Idle (lengths.map .ofLength) r)
    (hl : ∀ length ∈ lengths, 0 < length ∧ length ≤ station.settings.pointsPerChannel) :
    ∃ schedule : List Broadcast.Action,
      (schedule.foldl (act (.scripted channels rate) station) r).lengths =
        r.lengths ++ lengths := by
  induction lengths generalizing r with
  | nil => exact ⟨[], (List.append_nil _).symm⟩
  | cons length lengths ih =>
    obtain ⟨hpos, hle⟩ := hl length List.mem_cons_self
    obtain ⟨hidle, hfirst⟩ := @h.publish _ channels rate _ _ _ hpos hle
    obtain ⟨schedule, hrest⟩ := ih hidle fun l hl' => hl l (List.mem_cons_of_mem _ hl')
    refine ⟨List.replicate 4 .produce ++ schedule, ?_⟩
    rw [List.foldl_append, hrest, hfirst, List.append_assoc]
    rfl

/-- Every block has points, and the blocks are those that the source delivers. Their stamps are
right by the number of points before them, so that how the points before a block are divided makes
no difference to its stamp. All divisions that the settings allow come about. -/
theorem run_keeps_time (station : Station) :
    (∀ {σ : Type} (source : SampleSource σ) (s : σ) schedule,
      let r := run source station s schedule
      r.lengths <+: (r.deliveries source station).filterMap (·.block? station) ∧
      (∀ length ∈ r.lengths, 0 < length) ∧
      KeepsTime station.rate r.lengths r.times ∧
      ∀ {τ : Type} (other : SampleSource τ) (station' : Station) (t : τ)
        (schedule' : List Broadcast.Action),
        let r' := run other station' t schedule'
        station'.rate = station.rate → ∀ j k, j < r.lengths.length → k < r'.lengths.length →
          pointsBefore r.lengths j = pointsBefore r'.lengths k → r.times[j]? = r'.times[k]?) ∧
    ∀ lengths : List UInt32,
      (∀ length ∈ lengths, 0 < length ∧ length ≤ station.settings.pointsPerChannel) →
      ∃ schedule, (run (.scripted station.channelCount station.rate) station
        (lengths.map .ofLength) schedule).lengths = lengths := by
  constructor
  · intro σ source s schedule r
    have htaped : r.Taped source station s := taped schedule
    refine ⟨htaped.lengths_isPrefix, htaped.lengths_pos, ?_, ?_⟩
    · rw [htaped.times_eq]
      exact keepsTime_stamps htaped.lengths_pos
    · intro τ other station' t schedule' r' hrate j k hj hk hpoints
      have htaped' : r'.Taped other station' t := taped schedule'
      rw [htaped.times_eq, htaped'.times_eq, hrate, getElem?_stamps, getElem?_stamps, hpoints,
        List.getElem?_eq_getElem hj, List.getElem?_eq_getElem hk]
      rfl
  · intro lengths hl
    exact Idle.publishAll ⟨rfl, rfl, rfl, rfl⟩ hl

def scanner (points : UInt32) : Station := ⟨{ pointsPerChannel := points }, 1, 3⟩

theorem run_keeps_time_thirds :
    let r := run (.scripted 1 3) (scanner 4) ([2, 1, 4].map .ofLength)
      (List.replicate 12 .produce)
    let r' := run (.scripted 1 3) (scanner 3) ([3, 2].map .ofLength) (List.replicate 8 .produce)
    r.times = [0, 666666666, 1000000000] ∧ r'.times = [0, 1000000000] ∧
      stampEach? 3 0 [2, 1, 4] = some r.times ∧
      |(1000000000 : ℚ) - 666666666 - exactNanos 3 1| < 1 ∧ (666666666 : UInt64) < 1000000000 ∧
      r.times[2]? = r'.times[1]? := by
  intro r r'
  have hlengths : r.lengths = [2, 1, 4] := by decide +kernel
  have hlengths' : r'.lengths = [3, 2] := by decide +kernel
  have htimes : r.times = [0, 666666666, 1000000000] := by decide +kernel
  have htimes' : r'.times = [0, 1000000000] := by decide +kernel
  obtain ⟨-, -, hkeeps, hsplit⟩ :=
    (run_keeps_time (scanner 4)).1 (.scripted 1 3) ([2, 1, 4].map .ofLength)
      (List.replicate 12 .produce)
  have hkeeps : KeepsTime 3 [2, 1, 4] [0, 666666666, 1000000000] := by
    rw [← hlengths, ← htimes]
    exact hkeeps
  have hdrift := hkeeps.driftless 1 2 666666666 1000000000 rfl rfl (by decide) (by decide)
  have hbefore : pointsBefore [2, 1, 4] 1 = 2 ∧ pointsBefore [2, 1, 4] 2 = 3 := by decide
  have hone : ((3 : ℕ) : ℚ) - (2 : ℕ) = 1 := by norm_num
  rw [hbefore.1, hbefore.2, hone] at hdrift
  refine ⟨htimes, htimes', htimes ▸ hkeeps.words (by decide), hdrift, ?_, ?_⟩
  · exact hkeeps.increasing (by decide) (by decide) 1 2 _ _ (by decide) rfl rfl (by decide)
  · exact hsplit (.scripted 1 3) (scanner 3) ([3, 2].map .ofLength) (List.replicate 8 .produce) rfl
      2 1 (by rw [hlengths]; decide) (by rw [hlengths']; decide)
      (by rw [hlengths, hlengths']; decide)

end Course
end SampleCast
