import Mathlib.Algebra.BigOperators.Group.List.Basic
import Mathlib.Algebra.GroupWithZero.Nat
import SampleCast.Producer.Run
import SampleCast.Proofs.Barrier.Pacing
import SampleCast.Proofs.Producer.Tape

/-! The producer on its own.
While nobody is at the barrier the producer never has to wait, and all that it shares is what the
tape of its source has come to. `Solo` ties it to the tape after so many calls, and `Solo.run` keeps
it so for any number of actions. Main statement: `Solo.settled`, that between two blocks the
barrier, the slot, the counters and the statistics are those of the tape. -/

namespace SampleCast

def Delivery.isEmpty (d : Delivery) : Bool :=
  match d.result with
  | .ok points => points == 0
  | .error _ => false

theorem Delivery.le_of_block? {station : Station} {d : Delivery} {points : UInt32}
    (h : d.block? station = some points) : points ≤ station.settings.pointsPerChannel := by
  unfold Delivery.block? at h
  cases hd : d.result with
  | error e => simp [hd] at h
  | ok n =>
    simp only [hd] at h
    split_ifs at h with hn
    cases h
    exact hn.2

namespace Tape

def latest (t : Tape) : Frame := t.frames.getLastD {}

def stats (t : Tape) (emptyReads : Nat) : ProducerStats where
  generations := t.frames.length
  totalPoints := t.points
  lastTimestamp := t.latest.timestamp
  emptyReads

def hub (t : Tape) (stopped : Bool) : Hub where
  barrier := { generation := t.frames.length, stopped }
  slot := ⟨t.frames.length, t.latest⟩
  metrics := { generationsPublished := UInt64.ofNat t.frames.length }

variable {station : Station} {before after : List Delivery} {d : Delivery} {points : UInt32}

theorem length_ofDeliveries (ds : List Delivery) :
    (ofDeliveries station ds).analog.length = station.room ∧
      (ofDeliveries station ds).digital.length = station.room := by
  induction ds using List.reverseRecOn with
  | nil => exact ⟨List.length_replicate .., List.length_replicate ..⟩
  | append_singleton ds d ih =>
    rw [ofDeliveries_concat, add]
    cases d.block? station <;> simpa [lay] using ih

theorem points_ofDeliveries (ds : List Delivery) :
    (ofDeliveries station ds).points =
      ((ds.filterMap (·.block? station)).map (·.toNat)).sum := by
  induction ds using List.reverseRecOn with
  | nil => rfl
  | append_singleton ds d ih =>
    rw [ofDeliveries_concat, List.filterMap_append, List.map_append, List.sum_append, ← ih, add]
    cases hd : d.block? station <;> simp [hd, lay]

theorem latest_ofDeliveries (hd : d.block? station = some points)
    (hafter : ∀ e ∈ after, e.block? station = none) :
    (ofDeliveries station (before ++ d :: after)).latest =
      ((ofDeliveries station before).lay d).cut station points := by
  induction after using List.reverseRecOn with
  | nil =>
    rw [ofDeliveries_concat, add, hd]
    simp [latest, List.getLastD_eq_getLast?]
  | append_singleton after e ih =>
    have he := hafter e (by simp)
    rw [← List.cons_append, ← List.append_assoc, ofDeliveries_concat, add, he]
    exact ih fun e he => hafter e (List.mem_append_left _ he)

theorem take_overlay {α : Type} {written buffer : List α} {n : Nat} (hw : n ≤ written.length)
    (hb : n ≤ buffer.length) : (overlay written buffer).take n = written.take n := by
  rw [overlay, List.take_append_of_le_length, List.take_take, Nat.min_eq_left hb]
  rw [List.length_take]
  omega

theorem cut_lay (hd : d.block? station = some points) :
    let f := ((ofDeliveries station before).lay d).cut station points
    let area := station.channelCount.toNat * points.toNat
    f.WellShaped ∧ (area ≤ d.analog.length → f.analog = d.analog.take area) ∧
      (area ≤ d.digital.length → f.digital = d.digital.take area) := by
  intro f area
  obtain ⟨hanalog, hdigital⟩ := @length_ofDeliveries station before
  have hroom : area ≤ station.room :=
    Nat.mul_le_mul_left _ (UInt32.le_iff_toNat_le.mp (Delivery.le_of_block? hd))
  refine ⟨?_, fun hd => take_overlay hd (hanalog ▸ hroom),
    fun hd => take_overlay hd (hdigital ▸ hroom)⟩
  exact Frame.wellShaped_ofBuffers (le_of_le_of_eq hroom ((length_overlay ..).trans hanalog).symm)
    (le_of_le_of_eq hroom ((length_overlay ..).trans hdigital).symm)

end Tape

def ProducerPhase.IsSettled : ProducerPhase → Prop
  | .publishing _ | .opening .. => False
  | .awaiting | .acquiring | .failing _ | .ended _ => True

namespace Producer

variable {σ : Type} {source : SampleSource σ} {station : Station} {s : σ} {hub hub' : Hub}
  {p p' : Producer σ} {k : Nat} {published : List Frame}

def lastStamp (p : Producer σ) : UInt64 :=
  match p.phase with
  | .opening _ timestamp => timestamp
  | _ => p.stats.lastTimestamp

structure Solo (source : SampleSource σ) (station : Station) (s : σ) (k : Nat)
    (published : List Frame) (hub : Hub) (p : Producer σ) : Prop where
  filled : p.Filled station
  state : p.source = source.after station.demand s k
  follows : p.Follows station (Tape.ofDeliveries station (source.answers station.demand s k))
    published
  emptyReads : p.stats.emptyReads = (source.answers station.demand s k).countP (·.isEmpty)
  barrier : hub.barrier = { generation := p.stats.generations, stopped := hub.barrier.stopped }
  metrics : hub.metrics = { generationsPublished := UInt64.ofNat p.stats.generations }
  slot : hub.slot = ⟨published.length, published.getLastD {}⟩
  counted : published.length = p.stats.generations + p.phase.lead
  stamp : p.lastStamp = (published.getLastD {}).timestamp
  acquiring : p.phase = .acquiring → hub.barrier.stopped = false
  ended : p.result?.isSome = true → hub.barrier.stopped = true

theorem lead_of_isSettled (h : p.phase.IsSettled) : p.phase.lead = 0 := by
  cases hp : p.phase <;> simp_all [ProducerPhase.IsSettled, ProducerPhase.lead]

theorem uncounted_of_isSettled (h : p.phase.IsSettled) : p.phase.uncounted = 0 := by
  cases hp : p.phase <;> simp_all [ProducerPhase.IsSettled, ProducerPhase.uncounted]

theorem pending_of_isSettled (h : p.phase.IsSettled) : p.pending station = [] := by
  cases hp : p.phase <;> simp_all [ProducerPhase.IsSettled, pending]

theorem lastStamp_of_isSettled (h : p.phase.IsSettled) : p.lastStamp = p.stats.lastTimestamp := by
  cases hp : p.phase <;> simp_all [ProducerPhase.IsSettled, lastStamp]

theorem countEmpty_eq (stats : ProducerStats) (d : Delivery) :
    countEmpty stats d.result =
      { stats with emptyReads := stats.emptyReads + [d].countP (·.isEmpty) } := by
  obtain ⟨result, analog, digital, stop⟩ := d
  cases result with
  | error e => rfl
  | ok points =>
    by_cases h0 : points = 0
    · subst h0
      rfl
    · simp [countEmpty, Delivery.isEmpty, h0]

namespace Solo

theorem start (stopped : Bool) : Solo source station s 0 [] { barrier := { stopped } }
    (Producer.start station s) :=
  ⟨filled_start, rfl, follows_start, rfl, rfl, rfl, rfl, rfl, rfl, nofun, nofun⟩

theorem settled (h : Solo source station s k published hub p) (hp : p.phase.IsSettled) :
    let answers := source.answers station.demand s k
    let t := Tape.ofDeliveries station answers
    hub = t.hub hub.barrier.stopped ∧ p.stats = t.stats (answers.countP (·.isEmpty)) := by
  intro answers t
  have hframes : published = t.frames := by
    have hframes := h.follows.frames
    rwa [pending_of_isSettled hp, List.append_nil] at hframes
  have hpoints : p.stats.totalPoints = t.points := by
    have hpoints := h.follows.points
    rwa [uncounted_of_isSettled hp, Nat.add_zero] at hpoints
  have hcounted : t.frames.length = p.stats.generations := by
    rw [← hframes, h.counted, lead_of_isSettled hp, Nat.add_zero]
  have hstamp : p.stats.lastTimestamp = t.latest.timestamp := by
    rw [← lastStamp_of_isSettled hp, h.stamp, hframes, Tape.latest]
  constructor
  · obtain ⟨barrier, slot, metrics⟩ := hub
    have hbarrier := h.barrier
    have hslot := h.slot
    have hmetrics := h.metrics
    simp only at hbarrier hslot hmetrics
    rw [Tape.hub, hcounted, ← hbarrier, ← hmetrics, hslot, hframes, hcounted, Tape.latest]
  · have hempty := h.emptyReads
    cases hstats : p.stats with
    | mk generations totalPoints lastTimestamp emptyReads =>
      simp only [hstats] at hpoints hcounted hstamp hempty
      rw [Tape.stats, hcounted, ← hpoints, ← hstamp, hempty]

theorem pass (h : Solo source station s k published hub p) {phase : ProducerPhase}
    (hp : p.phase.IsSettled) (hq : phase.IsSettled)
    (hb : hub'.barrier = { hub.barrier with stopped := hub'.barrier.stopped })
    (hs : hub'.slot = hub.slot) (hm : hub'.metrics = hub.metrics)
    (ha : phase = .acquiring → hub'.barrier.stopped = false)
    (he : ({ p with phase } : Producer σ).result?.isSome = true → hub'.barrier.stopped = true) :
    Solo source station s k published hub' { p with phase } := by
  have hlead : phase.lead = p.phase.lead := by
    rw [lead_of_isSettled hp, lead_of_isSettled (p := { p with phase }) hq]
  constructor
  case filled =>
    refine ⟨h.filled.analog, h.filled.digital, fun points hpub => ?_⟩
    rw [show phase = .publishing points from hpub] at hq
    exact hq.elim
  case state => exact h.state
  case follows =>
    refine h.follows.keep (q := { p with phase }) rfl rfl ?_ ?_
    · rw [uncounted_of_isSettled hp, uncounted_of_isSettled (p := { p with phase }) hq]
    · rw [pending_of_isSettled hp, pending_of_isSettled (p := { p with phase }) hq]
  case emptyReads => exact h.emptyReads
  case barrier => rw [hb, h.barrier]
  case metrics => rw [hm, h.metrics]
  case slot => rw [hs, h.slot]
  case counted => rw [h.counted, hlead]
  case stamp =>
    rw [← h.stamp, lastStamp_of_isSettled hp, lastStamp_of_isSettled (p := { p with phase }) hq]
  case acquiring => exact ha
  case ended => exact he

theorem receive (h : Solo source station s k published hub p) (hp : p.phase = .acquiring)
    {d : Delivery} {s' : σ} (hd : source.acquire p.source (p.demand station) = (d, s')) :
    Solo source station s (k + 1) published (if d.stop then hub.stop else hub)
      (p.receive station d s') := by
  have hanswer : source.answer station.demand s k = d ∧
      source.after station.demand s (k + 1) = s' := by
    rw [h.filled.demand, h.state] at hd
    exact ⟨congrArg Prod.fst hd, congrArg Prod.snd hd⟩
  have hstats : (p.receive station d s').stats =
      { p.stats with emptyReads := p.stats.emptyReads + [d].countP (·.isEmpty) } :=
    countEmpty_eq p.stats d
  have hphase : (p.receive station d s').phase = judge station d.result := rfl
  constructor
  case filled =>
    refine ⟨?_, ?_, fun points hpub => le_of_judge hpub⟩
    · simpa [Producer.receive] using h.filled.analog
    · simpa [Producer.receive] using h.filled.digital
  case state => exact hanswer.2.symm
  case follows =>
    rw [SampleSource.answers_succ, hanswer.1, Tape.ofDeliveries_concat]
    exact h.follows.receive hp d s'
  case emptyReads =>
    rw [SampleSource.answers_succ, hanswer.1, List.countP_append, hstats, h.emptyReads]
  case barrier =>
    rw [hstats]
    split_ifs
    · exact congrArg Barrier.shutdown h.barrier
    · exact h.barrier
  case metrics =>
    rw [hstats]
    split_ifs
    · exact h.metrics
    · exact h.metrics
  case slot =>
    split_ifs
    · exact h.slot
    · exact h.slot
  case counted => rw [hstats, hphase, lead_judge, h.counted, hp]; rfl
  case stamp =>
    rw [← h.stamp, lastStamp, lastStamp, hphase, hp, hstats]
    rcases judge_cases station d with ⟨_, -, hj⟩ | ⟨-, hj | ⟨_, hj⟩⟩ <;> rw [hj]
  case acquiring =>
    intro ha
    rcases judge_cases station d with ⟨_, -, hj⟩ | ⟨-, hj | ⟨_, hj⟩⟩ <;>
      rw [hphase, hj] at ha <;> cases ha
  case ended =>
    intro he
    rcases judge_cases station d with ⟨_, -, hj⟩ | ⟨-, hj | ⟨_, hj⟩⟩ <;>
      rw [result?, hphase, hj] at he <;> cases he

theorem publish (h : Solo source station s k published hub p) {points : UInt32}
    (hp : p.phase = .publishing points) :
    Solo source station s k (published ++ [p.block station points])
      (hub.publish (hub.barrier.generation + 1) (p.block station points))
      { p with phase := .opening points (p.block station points).timestamp } := by
  have hcounted : published.length = p.stats.generations := by
    rw [h.counted, hp]
    rfl
  have hlast : (published ++ [p.block station points]).getLastD {} = p.block station points := by
    simp [List.getLastD_eq_getLast?]
  constructor
  case filled => exact ⟨h.filled.analog, h.filled.digital, fun _ h => by cases h⟩
  case state => exact h.state
  case follows =>
    refine h.follows.keep
      (q := { p with phase := .opening points (p.block station points).timestamp }) rfl rfl ?_ ?_
    · rw [hp]
      rfl
    · simp only [pending, hp, List.append_nil]
  case emptyReads => exact h.emptyReads
  case barrier => exact h.barrier
  case metrics => exact h.metrics
  case slot =>
    rw [hlast, List.length_append, hcounted, h.barrier]
    rfl
  case counted =>
    rw [List.length_append, hcounted]
    rfl
  case stamp => exact congrArg Frame.timestamp hlast.symm
  case acquiring => exact fun h => by cases h
  case ended => exact fun h => by cases h

theorem advance (h : Solo source station s k published hub p) {points : UInt32}
    {timestamp : UInt64} (hp : p.phase = .opening points timestamp) :
    Solo source station s k published (hub.advance.record .published)
      { p with stats := countBlock p.stats points timestamp, phase := .awaiting } := by
  constructor
  case filled => exact ⟨h.filled.analog, h.filled.digital, fun _ h => by cases h⟩
  case state => exact h.state
  case follows =>
    refine h.follows.keep
      (q := { p with stats := countBlock p.stats points timestamp, phase := .awaiting })
      rfl rfl ?_ ?_
    · rw [hp]
      rfl
    · simp only [pending, hp]
  case emptyReads => exact h.emptyReads
  case barrier =>
    change hub.barrier.reset.2 = _
    rw [h.barrier]
    rfl
  case metrics =>
    change hub.metrics.record .published = _
    rw [h.metrics, Metrics.record]
    change _ = ({ generationsPublished := UInt64.ofNat (p.stats.generations + 1) } : Metrics)
    rw [UInt64.ofNat_add]
    rfl
  case slot => exact h.slot
  case counted =>
    rw [h.counted, hp]
    rfl
  case stamp =>
    rw [← h.stamp]
    simp only [lastStamp, hp]
    rfl
  case acquiring => exact fun h => by cases h
  case ended => exact fun h => by cases h

theorem step (h : Solo source station s k published hub p)
    (hs : Step source station hub p hub' p') :
    ∃ published,
      Solo source station s (k + (p.call? station hub).toList.length) published hub' p' := by
  cases hs with
  | halt hp hr =>
    have hstopped := Barrier.stopped_of_readiness hr
    simp only [call?, hp]
    exact ⟨published, h.pass (hp ▸ trivial) trivial rfl rfl rfl nofun fun _ => hstopped⟩
  | ready hp hr =>
    have hrun := Barrier.stopped_eq_false_of_readiness hr
    simp only [call?, hp]
    exact ⟨published, h.pass (hp ▸ trivial) trivial rfl rfl rfl (fun _ => hrun) nofun⟩
  | acquire hp hd =>
    simp only [call?, hp]
    exact ⟨published, h.receive hp hd⟩
  | publish hp =>
    simp only [call?, hp]
    exact ⟨_, h.publish hp⟩
  | advance hp =>
    simp only [call?, hp]
    exact ⟨published, h.advance hp⟩
  | fail hp =>
    simp only [call?, hp]
    exact ⟨published, h.pass (hp ▸ trivial) trivial rfl rfl rfl nofun fun _ => rfl⟩

theorem run (h : Solo source station s k published hub p) (n : Nat) :
    let r := Producer.run source station n hub p
    ∃ published, Solo source station s (k + r.calls.length) published r.hub r.producer := by
  induction n generalizing k published hub p with
  | zero => exact ⟨published, h⟩
  | succ n ih =>
    cases hs : p.step source station hub with
    | none =>
      simp only [Producer.run, hs]
      exact ⟨published, h⟩
    | some next =>
      obtain ⟨published, hnext⟩ := h.step (step_of_eq_some hs)
      simp only [Producer.run, hs, List.length_append, ← Nat.add_assoc]
      exact ih hnext

end Solo
end Producer
end SampleCast
