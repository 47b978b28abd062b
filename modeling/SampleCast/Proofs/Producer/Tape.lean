import SampleCast.Proofs.Broadcast.Publication

/-! The tape of a source.
A producer lays the samples of every delivery over its buffers and cuts the blocks out of them. A
`Tape` is what comes of a list of deliveries in this way, with no barrier, no phase and no client in
it. `Follows` ties a producer to the tape of the deliveries that it has had: its buffers are those
of the tape, and the blocks of the tape are those that it has published and the one that it is about
to publish. Main statement: `taped`, that in every course the source gives its answers in their
order, and what is published is the tape of those that it has given. -/

namespace SampleCast

structure Tape where
  analog : List Level
  digital : List Bool
  points : Nat := 0
  frames : List Frame := []

/-- The points of the block that a delivery brings. It brings none if the source has failed, has
nothing, or has more than it was asked for. -/
def Delivery.block? (station : Station) (d : Delivery) : Option UInt32 :=
  match d.result with
  | .ok points =>
    if 0 < points ∧ points ≤ station.settings.pointsPerChannel then some points else none
  | .error _ => none

structure Delivery.Same (d e : Delivery) : Prop where
  result : d.result = e.result
  analog : d.analog = e.analog
  digital : d.digital = e.digital

def Station.room (station : Station) : Nat :=
  station.channelCount.toNat * station.settings.pointsPerChannel.toNat

def Station.demand (station : Station) : Demand where
  maxPoints := station.settings.pointsPerChannel
  timeout := .ofMillis station.settings.acquisitionTimeout.toNat
  analogRoom := station.room
  digitalRoom := station.room

namespace SampleSource

variable {σ : Type}

def after (source : SampleSource σ) (d : Demand) (s : σ) : Nat → σ
  | 0 => s
  | k + 1 => (source.acquire (source.after d s k) d).2

def answer (source : SampleSource σ) (d : Demand) (s : σ) (k : Nat) : Delivery :=
  (source.acquire (source.after d s k) d).1

def answers (source : SampleSource σ) (d : Demand) (s : σ) (n : Nat) : List Delivery :=
  (List.range n).map (source.answer d s)

theorem answers_succ (source : SampleSource σ) (d : Demand) (s : σ) (n : Nat) :
    source.answers d s (n + 1) = source.answers d s n ++ [source.answer d s n] := by
  rw [answers, List.range_succ, List.map_append]
  rfl

end SampleSource

namespace Tape

variable {station : Station} {ds es : List Delivery}

def lay (t : Tape) (d : Delivery) : Tape :=
  { t with analog := overlay d.analog t.analog, digital := overlay d.digital t.digital }

def cut (station : Station) (t : Tape) (points : UInt32) : Frame :=
  .ofBuffers (timestampAt station.rate t.points) station.channelCount points t.analog t.digital

def add (station : Station) (t : Tape) (d : Delivery) : Tape :=
  match d.block? station with
  | none => t.lay d
  | some points =>
    { t.lay d with
      points := t.points + points.toNat
      frames := t.frames ++ [(t.lay d).cut station points] }

def blank (station : Station) : Tape where
  analog := List.replicate station.room 0
  digital := List.replicate station.room false

def ofDeliveries (station : Station) (ds : List Delivery) : Tape :=
  ds.foldl (add station) (blank station)

theorem ofDeliveries_concat (ds : List Delivery) (d : Delivery) :
    ofDeliveries station (ds ++ [d]) = (ofDeliveries station ds).add station d := by
  rw [ofDeliveries, List.foldl_append]
  rfl

theorem frames_isPrefix_add (t : Tape) (d : Delivery) : t.frames <+: (t.add station d).frames := by
  unfold add
  cases d.block? station with
  | none => exact List.prefix_rfl
  | some points => exact List.prefix_append _ _

theorem frames_isPrefix_append (ds es : List Delivery) :
    (ofDeliveries station ds).frames <+: (ofDeliveries station (ds ++ es)).frames := by
  induction es using List.reverseRecOn with
  | nil => simp
  | append_singleton es e ih =>
    rw [← List.append_assoc, ofDeliveries_concat]
    exact ih.trans (frames_isPrefix_add _ _)

theorem length_frames (ds : List Delivery) :
    (ofDeliveries station ds).frames.length = (ds.filterMap (Delivery.block? station)).length := by
  induction ds using List.reverseRecOn with
  | nil => rfl
  | append_singleton ds d ih =>
    rw [ofDeliveries_concat, List.filterMap_append, List.length_append, ← ih, add]
    cases hd : d.block? station <;> simp [hd, lay]

theorem add_same {d e : Delivery} (h : d.Same e) (t : Tape) :
    t.add station d = t.add station e := by
  obtain ⟨result, analog, digital, _⟩ := d
  obtain ⟨result', analog', digital', _⟩ := e
  obtain ⟨hr, ha, hd⟩ := h
  change result = result' at hr
  change analog = analog' at ha
  change digital = digital' at hd
  subst hr ha hd
  rfl

theorem ofDeliveries_same (h : List.Forall₂ Delivery.Same ds es) :
    ofDeliveries station ds = ofDeliveries station es := by
  unfold ofDeliveries
  generalize blank station = t
  induction h generalizing t with
  | nil => rfl
  | cons hd _ ih =>
    rw [List.foldl_cons, List.foldl_cons, add_same hd]
    exact ih _

end Tape

variable {σ : Type} {source : SampleSource σ} {station : Station} {s : σ}

def ProducerPhase.uncounted : ProducerPhase → Nat
  | .publishing points | .opening points _ => points.toNat
  | _ => 0

namespace Producer

def pending (station : Station) (p : Producer σ) : List Frame :=
  match p.phase with
  | .publishing points => [p.block station points]
  | _ => []

structure Follows (station : Station) (t : Tape) (published : List Frame) (p : Producer σ) :
    Prop where
  analog : p.analog = t.analog
  digital : p.digital = t.digital
  points : p.stats.totalPoints + p.phase.uncounted = t.points
  frames : published ++ p.pending station = t.frames

theorem Filled.demand {p : Producer σ} (h : p.Filled station) :
    p.demand station = station.demand := by
  rw [Producer.demand, h.analog, h.digital]
  rfl

variable {t : Tape} {published : List Frame} {p : Producer σ}

theorem judge_cases (station : Station) (d : Delivery) :
    (∃ points, d.block? station = some points ∧ judge station d.result = .publishing points) ∨
    (d.block? station = none ∧
      (judge station d.result = .awaiting ∨ ∃ e, judge station d.result = .failing e)) := by
  unfold Delivery.block? judge
  cases d.result with
  | error e => exact .inr ⟨rfl, .inr ⟨_, rfl⟩⟩
  | ok points =>
    by_cases hlt : station.settings.pointsPerChannel < points
    · have hle : ¬ points ≤ station.settings.pointsPerChannel := UInt32.not_le.mpr hlt
      exact .inr ⟨by simp [hle], .inr ⟨_, by simp only [if_pos hlt]; rfl⟩⟩
    · by_cases h0 : points = 0
      · exact .inr ⟨by simp [h0], .inl (by simp [h0])⟩
      · have hpos : 0 < points := UInt32.pos_iff_ne_zero.mpr h0
        have hle : points ≤ station.settings.pointsPerChannel := UInt32.not_lt.mp hlt
        exact .inl ⟨points, by simp [hpos, hle], by simp [hlt, h0]⟩

variable {t : Tape} {published : List Frame} {p q : Producer σ}

theorem follows_start : (start station s).Follows station (Tape.blank station) [] :=
  ⟨rfl, rfl, rfl, rfl⟩

theorem Follows.keep (h : p.Follows station t published) (ha : q.analog = p.analog)
    (hd : q.digital = p.digital)
    (hc : q.stats.totalPoints + q.phase.uncounted = p.stats.totalPoints + p.phase.uncounted)
    {published' : List Frame}
    (hf : published' ++ q.pending station = published ++ p.pending station) :
    q.Follows station t published' :=
  ⟨ha.trans h.analog, hd.trans h.digital, hc.trans h.points, hf.trans h.frames⟩

theorem Follows.receive (h : p.Follows station t published) (hp : p.phase = .acquiring)
    (d : Delivery) (source : σ) :
    (p.receive station d source).Follows station (t.add station d) published := by
  have hpoints : p.stats.totalPoints = t.points := by
    have h := h.points
    rwa [hp] at h
  have hframes : published = t.frames := by
    have h := h.frames
    rwa [pending, hp, List.append_nil] at h
  have hstats : (p.receive station d source).stats.totalPoints = p.stats.totalPoints := by
    change (countEmpty p.stats d.result).totalPoints = _
    unfold countEmpty
    split <;> rfl
  have hanalog : (p.receive station d source).analog = (t.lay d).analog := by
    change overlay d.analog p.analog = overlay d.analog t.analog
    rw [h.analog]
  have hdigital : (p.receive station d source).digital = (t.lay d).digital := by
    change overlay d.digital p.digital = overlay d.digital t.digital
    rw [h.digital]
  have hphase : (p.receive station d source).phase = judge station d.result := rfl
  rcases judge_cases station d with ⟨points, hb, hj⟩ | ⟨hb, hj⟩
  · rw [Tape.add, hb]
    refine ⟨hanalog, hdigital, ?_, ?_⟩
    · rw [hphase, hj, hstats, hpoints]
      rfl
    · rw [pending, hphase, hj, hframes]
      change _ ++ [(p.receive station d source).block station points] = _
      rw [block, hstats, hanalog, hdigital, hpoints]
      rfl
  · rw [Tape.add, hb]
    refine ⟨hanalog, hdigital, ?_, ?_⟩
    · rw [hphase, hstats, hpoints]
      rcases hj with hj | ⟨e, hj⟩ <;> rw [hj] <;> rfl
    · rw [pending, hphase, hframes]
      rcases hj with hj | ⟨e, hj⟩ <;> rw [hj] <;> exact List.append_nil _

end Producer

def Moment.delivery? (source : SampleSource σ) (station : Station) (m : Moment σ) :
    Option Delivery :=
  match m.before.producer.phase, m.after.producer.phase with
  | .acquiring, .acquiring => none
  | .acquiring, _ =>
    some (source.acquire m.before.producer.source (m.before.producer.demand station)).1
  | _, _ => none

namespace Course

def deliveries (source : SampleSource σ) (station : Station) (r : Course σ) : List Delivery :=
  r.past.filterMap (Moment.delivery? source station)

variable {r : Course σ} {past : List (Moment σ)} {m : Moment σ} {b : Broadcast σ}

theorem deliveries_concat :
    deliveries source station ⟨past ++ [m], b⟩ =
      deliveries source station ⟨past, m.before⟩ ++ (m.delivery? source station).toList := by
  cases h : m.delivery? source station <;> simp [deliveries, h]

structure Taped (source : SampleSource σ) (station : Station) (s : σ) (r : Course σ) : Prop where
  follows : r.present.producer.Follows station
    (Tape.ofDeliveries station (r.deliveries source station)) (r.published.map (·.frame))
  answers : r.deliveries source station =
    source.answers station.demand s (r.deliveries source station).length
  state : r.present.producer.source =
    source.after station.demand s (r.deliveries source station).length

theorem Taped.start : Taped source station s { present := .start station s : Course σ } :=
  ⟨Producer.follows_start, rfl, rfl⟩

theorem Taped.keep (h : r.Taped source station s) {a : Broadcast.Action}
    (hd : Moment.delivery? source station ⟨r.present, a, b⟩ = none)
    (hs : b.producer.source = r.present.producer.source)
    (ha : b.producer.analog = r.present.producer.analog)
    (hdig : b.producer.digital = r.present.producer.digital)
    (hc : b.producer.stats.totalPoints + b.producer.phase.uncounted =
      r.present.producer.stats.totalPoints + r.present.producer.phase.uncounted)
    (hf : ((Moment.published? ⟨r.present, a, b⟩).toList.map (·.frame)) ++
      b.producer.pending station = r.present.producer.pending station) :
    Taped source station s ⟨r.past ++ [⟨r.present, a, b⟩], b⟩ := by
  have hdel : deliveries source station ⟨r.past ++ [⟨r.present, a, b⟩], b⟩ =
      r.deliveries source station := by
    rw [deliveries_concat, hd, Option.toList_none, List.append_nil]
  constructor
  case follows =>
    rw [hdel]
    refine h.follows.keep ha hdig hc ?_
    rw [published_concat, List.map_append, List.append_assoc, hf]
  case answers =>
    rw [hdel]
    exact h.answers
  case state =>
    rw [hdel]
    exact hs.trans h.state

theorem Taped.idle (h : r.Taped source station s) {a : Broadcast.Action}
    (hb : b.producer = r.present.producer) :
    Taped source station s ⟨r.past ++ [⟨r.present, a, b⟩], b⟩ := by
  have hd : Moment.delivery? source station ⟨r.present, a, b⟩ = none := by
    simp only [Moment.delivery?, hb]
    cases r.present.producer.phase <;> rfl
  have hp : Moment.published? ⟨r.present, a, b⟩ = none := by
    simp only [Moment.published?, hb]
    cases r.present.producer.phase <;> rfl
  exact h.keep hd (by rw [hb]) (by rw [hb]) (by rw [hb]) (by rw [hb]) (by rw [hp, hb]; rfl)

theorem Taped.acquire (h : r.Taped source station s) (hfill : r.present.producer.Filled station)
    (hp : r.present.producer.phase = .acquiring) {d : Delivery} {s' : σ}
    (hd : source.acquire r.present.producer.source (r.present.producer.demand station) = (d, s'))
    {a : Broadcast.Action} {hub : Hub} :
    let b : Broadcast σ :=
      { r.present with hub, producer := r.present.producer.receive station d s' }
    Taped source station s ⟨r.past ++ [⟨r.present, a, b⟩], b⟩ := by
  intro b
  have hphase : b.producer.phase = Producer.judge station d.result := rfl
  have hdelivery : Moment.delivery? source station ⟨r.present, a, b⟩ = some d := by
    simp only [Moment.delivery?, hp, hphase, hd]
    rcases Producer.judge_cases station d with ⟨_, -, hj⟩ | ⟨-, hj | ⟨_, hj⟩⟩ <;>
      rw [hj]
  have hpublished : Moment.published? ⟨r.present, a, b⟩ = none := by
    simp only [Moment.published?, hp]
  have hdel : deliveries source station ⟨r.past ++ [⟨r.present, a, b⟩], b⟩ =
      r.deliveries source station ++ [d] := by
    rw [deliveries_concat, hdelivery, Option.toList_some]
  rw [hfill.demand, h.state] at hd
  have hanswer : source.answer station.demand s (r.deliveries source station).length = d :=
    congrArg Prod.fst hd
  constructor
  case follows =>
    rw [hdel, Tape.ofDeliveries_concat, published_concat, hpublished, Option.toList_none,
      List.append_nil]
    exact h.follows.receive hp d s'
  case answers =>
    rw [hdel, List.length_append, List.length_singleton, SampleSource.answers_succ, hanswer,
      ← h.answers]
  case state =>
    rw [hdel, List.length_append, List.length_singleton]
    exact (congrArg Prod.snd hd).symm

theorem Taped.step (h : r.Taped source station s) (hfill : r.present.producer.Filled station)
    {a : Broadcast.Action} (hs : Broadcast.Step source station r.present b) :
    Taped source station s ⟨r.past ++ [⟨r.present, a, b⟩], b⟩ := by
  cases hs with
  | @produce hub p hp =>
    cases hp with
    | halt hp _ | ready hp _ | fail hp =>
      refine h.keep ?_ rfl rfl rfl ?_ ?_
      · simp only [Moment.delivery?, hp]
      · rw [hp]
        rfl
      · simp only [Moment.published?, Producer.pending, hp]
        rfl
    | publish hp =>
      refine h.keep ?_ rfl rfl rfl ?_ ?_
      · simp only [Moment.delivery?, hp]
      · rw [hp]
        rfl
      · simp only [Moment.published?, Producer.pending, hp]
        rfl
    | @advance points timestamp hp =>
      refine h.keep ?_ rfl rfl rfl ?_ ?_
      · simp only [Moment.delivery?, hp]
      · rw [hp]
        change r.present.producer.stats.totalPoints + points.toNat + 0 = _
        rfl
      · simp only [Moment.published?, Producer.pending, hp]
        rfl
    | acquire hp hd => exact h.acquire hfill hp hd
  | look _ => exact h.idle rfl
  | arrive => exact h.idle rfl
  | feed _ _ => exact h.idle rfl
  | send _ _ => exact h.idle rfl
  | stop => exact h.idle rfl

theorem taped (schedule : List Broadcast.Action) :
    Taped source station s (run source station s schedule) :=
  (run_induction
    (P := fun r => r.present.producer.Filled station ∧ Taped source station s r)
    ⟨Producer.filled_start, .start⟩
    (fun _ _ _ h hs => ⟨hs.filled h.1, h.2.step h.1 hs⟩) schedule).2

end Course
end SampleCast
