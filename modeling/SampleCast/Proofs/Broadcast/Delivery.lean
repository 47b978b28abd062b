import SampleCast.Proofs.Broadcast.Publication
import SampleCast.Proofs.Connection.Flow
import SampleCast.Proofs.Connection.Ledger
import SampleCast.Proofs.Subscriber

/-! Delivery.
The four stages between the producer and a client are put together here: the copy out of the slot,
the queue, the sender, and the decoder of the client. Main statement: `run_delivers`, that in every
course a connection queues the requested channels of the published blocks, from the one after the
generation in which it joined, without a gap, that its client's side has taken a prefix of the reply
and their messages, and that a subscriber reads those frames from any part of what was taken. -/

namespace SampleCast

variable {σ : Type} {source : SampleSource σ} {station : Station} {s : σ}

namespace Moment

variable {m : Moment σ} {i : Nat}

theorem idle (h : ∀ p, m.before.feeder? i = some p → m.after.feeder? i = some p) :
    m.joined? i = none ∧ m.queued? i = none := by
  unfold joined? queued?
  cases hp : m.before.feeder? i with
  | none => exact ⟨rfl, rfl⟩
  | some p =>
    rw [h p hp]
    exact ⟨p.joined?_self, p.queued?_self⟩

theorem fed {p q : FeederPhase} (hp : m.before.feeder? i = some p)
    (hq : m.after.feeder? i = some q) :
    m.joined? i = p.joined? q ∧ m.queued? i = p.queued? q := by
  unfold joined? queued?
  rw [hp, hq]
  exact ⟨rfl, rfl⟩

end Moment

namespace Course

def frames (r : Course σ) (i : Nat) : List Frame := (r.queued i).map (·.2)

/-- What is known of connection `i`, whether it has been taken yet or not. -/
structure Serves (station : Station) (r : Course σ) (i : Nat) : Prop where
  absent : r.present.connections[i]? = none → r.joined? i = none ∧ r.queued i = []
  ledger : ∀ c, r.present.connections[i]? = some c →
    Ledger r.block? (r.joined? i) (r.queued i) c.feeder
  flow : ∀ c, r.present.connections[i]? = some c →
    Connection.Flow (Reply.encode ⟨station.rate⟩) (r.frames i) c

variable {r : Course σ} {i : Nat} {a : Broadcast.Action} {b : Broadcast σ} {c c' : Connection}

theorem Serves.start : Serves station { present := .start station s : Course σ } i :=
  ⟨fun _ => ⟨rfl, rfl⟩, by simp [Broadcast.start], by simp [Broadcast.start]⟩

/-- The feeder copies the block that was published for the generation that it was told of. -/
theorem isSelection_of_copy (h : r.Publication station) (hc : r.present.connections[i]? = some c)
    {seat : Seat} {g : Nat} {f : Frame} (hp : c.feeder = .copying seat g)
    (hs : r.present.hub.slot.copy seat.channels = some (g, f)) :
    IsSelection r.block? seat.channels g f := by
  have hhand : c.feeder.inHand? = some (seat, g) := by
    rw [hp]
    rfl
  obtain ⟨hsucc, hslot, -⟩ := h.agreement.inHand (Broadcast.feeder?_of_getElem? hc) hhand
  obtain ⟨f', hf, he⟩ := Option.map_eq_some_iff.mp hs
  cases he
  exact ⟨r.present.hub.slot.frame, h.current (by omega), hf⟩

theorem eq_succ_of_queueing (h : r.Publication station)
    (hc : r.present.connections[i]? = some c) {seat : Seat} {g : Nat} {f : Frame}
    (hp : c.feeder = .queueing seat g f) : g = seat.lastSeen + 1 := by
  refine (h.agreement.inHand (Broadcast.feeder?_of_getElem? hc) ?_).1
  rw [hp]
  rfl

theorem Serves.idle (h : r.Serves station i)
    (hm : ∀ p, r.present.feeder? i = some p → b.feeder? i = some p)
    (hc : ∀ c', b.connections[i]? = some c' → ∃ c, r.present.connections[i]? = some c ∧
      c'.feeder = c.feeder ∧ ∀ reply frames, Connection.Flow reply frames c →
        Connection.Flow reply frames c') :
    Serves station ⟨r.past ++ [⟨r.present, a, b⟩], b⟩ i := by
  obtain ⟨hj, hq⟩ := Moment.idle (m := ⟨r.present, a, b⟩) hm
  have hjoined : joined? ⟨r.past ++ [⟨r.present, a, b⟩], b⟩ i = r.joined? i := by
    rw [joined?_concat, hj, Option.or_none]
  have hqueued : queued ⟨r.past ++ [⟨r.present, a, b⟩], b⟩ i = r.queued i := by
    rw [queued_concat, hq, Option.toList_none, List.append_nil]
  constructor
  case absent =>
    intro hn
    rw [hjoined, hqueued]
    refine h.absent ?_
    cases hc : r.present.connections[i]? with
    | none => rfl
    | some c =>
      have hf := hm _ (Broadcast.feeder?_of_getElem? hc)
      rw [Broadcast.feeder?, hn] at hf
      cases hf
  case ledger =>
    intro c' hc'
    obtain ⟨c, hcon, hfeed, -⟩ := hc c' hc'
    rw [hjoined, hqueued, hfeed]
    exact (h.ledger c hcon).mono fun g block hb => block?_mono rfl hb
  case flow =>
    intro c' hc'
    obtain ⟨c, hcon, -, hflow⟩ := hc c' hc'
    rw [frames, hqueued]
    exact hflow _ _ (h.flow c hcon)

theorem Serves.feed (h : r.Serves station i) (hpub : r.Publication station)
    (hc : r.present.connections[i]? = some c) (hc' : b.connections[i]? = some c')
    (hf : Connection.FeederStep station r.present.hub c b.hub c') :
    Serves station ⟨r.past ++ [⟨r.present, a, b⟩], b⟩ i := by
  obtain ⟨hj, hq⟩ := Moment.fed (m := ⟨r.present, a, b⟩) (Broadcast.feeder?_of_getElem? hc)
    (Broadcast.feeder?_of_getElem? hc')
  have hjoined : joined? ⟨r.past ++ [⟨r.present, a, b⟩], b⟩ i =
      (r.joined? i).or (c.feeder.joined? c'.feeder) := by
    rw [joined?_concat, hj]
  have hqueued : queued ⟨r.past ++ [⟨r.present, a, b⟩], b⟩ i =
      r.queued i ++ (c.feeder.queued? c'.feeder).toList := by
    rw [queued_concat, hq]
  constructor
  case absent =>
    intro hn
    rw [hc'] at hn
    cases hn
  case ledger =>
    intro d hd
    cases hc'.symm.trans hd
    rw [hjoined, hqueued]
    exact (hf.ledger (h.ledger c hc) (fun _ _ _ => isSelection_of_copy hpub hc)
      (fun _ _ _ => eq_succ_of_queueing hpub hc)).mono fun g block hb => block?_mono rfl hb
  case flow =>
    intro d hd
    cases hc'.symm.trans hd
    have hframes : frames ⟨r.past ++ [⟨r.present, a, b⟩], b⟩ i =
        r.frames i ++ ((c.feeder.queued? c'.feeder).map (·.2)).toList := by
      rw [frames, hqueued, List.map_append, ← Option.toList_map]
      rfl
    rw [hframes]
    exact hf.flow (h.flow c hc)

theorem Serves.arrive {incoming : List Reading} (h : r.Serves station i)
    (hc : r.present.connections[i]? = none)
    (hc' : b.connections[i]? = some (.accept station incoming)) :
    Serves station ⟨r.past ++ [⟨r.present, a, b⟩], b⟩ i := by
  have hn : ∀ p, r.present.feeder? i ≠ some p := by
    intro p hp
    rw [Broadcast.feeder?, hc] at hp
    cases hp
  obtain ⟨hj, hq⟩ := Moment.idle (m := ⟨r.present, a, b⟩) fun p hp => absurd hp (hn p)
  obtain ⟨hjoined, hqueued⟩ := h.absent hc
  have hjoined' : joined? ⟨r.past ++ [⟨r.present, a, b⟩], b⟩ i = none := by
    rw [joined?_concat, hj, Option.or_none]
    exact hjoined
  have hqueued' : queued ⟨r.past ++ [⟨r.present, a, b⟩], b⟩ i = [] := by
    rw [queued_concat, hq, Option.toList_none, List.append_nil]
    exact hqueued
  constructor
  case absent => exact fun _ => ⟨hjoined', hqueued'⟩
  case ledger =>
    intro d hd
    cases hc'.symm.trans hd
    rw [hjoined', hqueued']
    exact .reading
  case flow =>
    intro d hd
    cases hc'.symm.trans hd
    rw [frames, hqueued']
    exact .accept station incoming

theorem Serves.step (h : r.Serves station i) (hpub : r.Publication station)
    (hs : Broadcast.Step source station r.present b) :
    Serves station ⟨r.past ++ [⟨r.present, a, b⟩], b⟩ i := by
  rcases hs.connection i with hsame | ⟨hnone, incoming, hc'⟩ | ⟨c, c', hc, hc', hf | hs⟩
  · refine h.idle ?_ ?_
    · intro p hp
      rw [Broadcast.feeder?, hsame]
      exact hp
    · intro c' hc'
      exact ⟨c', hsame ▸ hc', rfl, fun _ _ => id⟩
  · exact h.arrive hnone hc'
  · exact h.feed hpub hc hc' hf
  · refine h.idle ?_ ?_
    · intro p hp
      rw [Broadcast.feeder?_of_getElem? hc', hs.feeder, ← Broadcast.feeder?_of_getElem? hc, hp]
    · intro d hd
      cases hc'.symm.trans hd
      exact ⟨c, hc, hs.feeder, fun _ _ => hs.flow⟩

theorem serves (schedule : List Broadcast.Action) :
    let r := run source station s schedule
    r.Publication station ∧ ∀ i, r.Serves station i :=
  run_induction (P := fun r => r.Publication station ∧ ∀ i, r.Serves station i)
    ⟨.start, fun _ => .start⟩
    (fun _ _ _ h hs => ⟨h.1.step hs, fun i => (h.2 i).step h.1 hs⟩) schedule

theorem wellShaped_of_isSelection (h : r.Publication station) {channels : List UInt32} {g : Nat}
    {f : Frame} (hn : channels.length < UInt32.size) (hf : IsSelection r.block? channels g f) :
    f.WellShaped ∧ f.channelCount.toNat = channels.length := by
  obtain ⟨block, hb, hs⟩ := hf
  exact ⟨Frame.wellShaped_select (wellShaped_of_block? h hb) hs hn,
    Frame.channelCount_select hs hn⟩

theorem run_delivers (source : SampleSource σ) (station : Station) (s : σ)
    (schedule : List Broadcast.Action) (i : Nat) (c : Connection) (seat : Seat) :
    let r := run source station s schedule
    let reply := Reply.encode ⟨station.rate⟩
    r.present.connections[i]? = some c → r.joined? i = some seat →
    r.published.map (·.generation) = List.range' 1 r.published.length ∧
    (r.queued i).map (·.1) = List.range' (seat.lastSeen + 1) (r.queued i).length ∧
    (∀ g f, (g, f) ∈ r.queued i → IsSelection r.block? seat.channels g f) ∧
    c.output <+: reply ++ (r.frames i).flatMap Message.encode ∧
    ∀ limit peer incoming content,
      (Request.write ⟨seat.channels⟩ peer).fault = none →
      reply ++ content <+: c.output → Reading.Carries incoming (reply ++ content) →
      (∀ f ∈ r.frames i, Payload.size f ≤ limit ∧ Payload.size f < UInt32.size) →
      ∃ client, (Subscriber.subscribe seat.channels ⟨incoming, peer⟩).result = .ok client ∧
        client.rate = station.rate ∧ client.limit Decoder.defaultLimit = client ∧
        (client.limit limit).Reads (r.frames i) content := by
  intro r reply hc hj
  obtain ⟨hpub, hserves⟩ : r.Publication station ∧ ∀ i, r.Serves station i := serves schedule
  have hqueued : Queued r.block? seat (r.queued i) := ((hserves i).ledger c hc).since seat hj
  have hout : c.output <+: reply ++ (r.frames i).flatMap Message.encode :=
    ((hserves i).flow c hc).output_isPrefix
  have hlen : r.published.length = r.present.hub.slot.generation := by
    rw [← List.length_map (f := (·.generation)), hpub.generations, List.length_range']
  refine ⟨by rw [hlen]; exact hpub.generations, hqueued.consecutive, hqueued.selected, hout, ?_⟩
  intro limit peer incoming content hw hpre hcarries hsize
  obtain ⟨client, hres, hch, hrate, hdec, hrest⟩ := Subscriber.subscribe_ok hw hcarries
  have htakes : ∀ f ∈ r.frames i, (client.limit limit).Takes f := by
    intro f hf
    obtain ⟨⟨g, f'⟩, hmem, rfl⟩ := List.mem_map.mp hf
    obtain ⟨hshape, hcount⟩ :=
      wellShaped_of_isSelection hpub hqueued.narrow (hqueued.selected g f' hmem)
    exact ⟨hshape, by rw [hcount, ← hch]; rfl, (hsize f' hf).1, (hsize f' hf).2⟩
  have hcontent : content <+: (r.frames i).flatMap Message.encode :=
    (List.prefix_append_right_inj reply).mp (hpre.trans hout)
  exact ⟨client, hres, hrate, by rw [Subscriber.limit, ← hdec],
    Subscriber.reads_of_prefix htakes hcontent hrest⟩

def twoBlocks : List Broadcast.Action :=
  Broadcast.firstBlock ++ List.replicate 4 (.feed 0 (.upTo 1)) ++ List.replicate 4 .produce ++
    List.replicate 3 (.feed 0 (.upTo 1)) ++ List.replicate 6 (.send 0 (.upTo 30))

def secondChannel : List (Nat × Frame) :=
  [(1, ⟨0, 1, 1, [8], [false]⟩), (2, ⟨1000000, 1, 1, [8], [false]⟩)]

/-- Of 101 bytes 21 are the reply, 50 the first message and 30 from the second. -/
theorem run_delivers_twoBlocks :
    let r := run Broadcast.pulse Broadcast.pulseStation () twoBlocks
    r.queued 0 = secondChannel ∧
    ∃ c client fault, r.present.connections[0]? = some c ∧ r.joined? 0 = some ⟨1, [1], 0, 0⟩ ∧
      c.output.length = 101 ∧
      (Subscriber.subscribe [1] ⟨[.chunk c.output], []⟩).result = .ok client ∧
      client.rate = 1000 ∧
      (client.limit 1000).answers 2 =
        [.ok (some ⟨0, 1, 1, [8], [false]⟩), .error (.io fault)] ∧
      fault.kind = .unexpectedEnd := by
  have hqueued : (run Broadcast.pulse Broadcast.pulseStation () twoBlocks).queued 0 =
      secondChannel := by decide +kernel
  have hsome : (run Broadcast.pulse Broadcast.pulseStation ()
      twoBlocks).present.connections[0]?.isSome := by decide +kernel
  have hj : (run Broadcast.pulse Broadcast.pulseStation () twoBlocks).joined? 0 =
      some ⟨1, [1], 0, 0⟩ := by decide +kernel
  have hout : ((run Broadcast.pulse Broadcast.pulseStation ()
      twoBlocks).present.connections[0]?).all fun c =>
        Reply.encode ⟨Broadcast.pulseStation.rate⟩ ++ c.output.drop 21 = c.output ∧
          c.output.length = 101 := by decide +kernel
  have hframes : (run Broadcast.pulse Broadcast.pulseStation () twoBlocks).frames 0 =
      secondChannel.map (·.2) := by rw [frames, hqueued]
  have hsizes : ∀ f ∈ (run Broadcast.pulse Broadcast.pulseStation () twoBlocks).frames 0,
      Payload.size f ≤ 1000 ∧ Payload.size f < UInt32.size := by
    rw [hframes]
    decide
  have hrequest : (Request.write ⟨[1]⟩ []).fault = none := by decide
  obtain ⟨c, hc⟩ := Option.isSome_iff_exists.mp hsome
  rw [hc, Option.all_some, decide_eq_true_eq] at hout
  obtain ⟨hout, hlength⟩ := hout
  have hcarries : Reading.Carries [.chunk c.output]
      (Reply.encode ⟨Broadcast.pulseStation.rate⟩ ++ c.output.drop 21) := by
    refine ⟨?_, by rw [hout]; simp [Reading.bytes]⟩
    intro reading hr
    rw [List.mem_singleton.mp hr]
    exact List.ne_nil_of_length_pos (by rw [hlength]; exact Nat.succ_pos 100)
  have hprefix : Reply.encode ⟨Broadcast.pulseStation.rate⟩ ++ c.output.drop 21 <+: c.output :=
    ⟨[], by rw [List.append_nil, hout]⟩
  obtain ⟨-, -, -, -, hreads⟩ :=
    run_delivers Broadcast.pulse Broadcast.pulseStation () twoBlocks 0 c ⟨1, [1], 0, 0⟩ hc hj
  obtain ⟨client, hres, hrate, -, hclient⟩ :=
    hreads 1000 [] [.chunk c.output] (c.output.drop 21) hrequest hprefix hcarries hsizes
  rw [hframes] at hclient
  obtain ⟨last, hanswers, hlast⟩ :=
    Subscriber.Reads.answers_of_length (k := 50) hclient (by decide) (by decide)
  rw [List.length_drop, hlength] at hanswers hlast
  rcases hlast with ⟨hwhole, -⟩ | ⟨-, fault, rfl, hkind⟩
  · cases hwhole
  · exact ⟨hqueued, c, client, fault, hc, hj, hlength, hres, hrate, hanswers, hkind⟩

end Course
end SampleCast
