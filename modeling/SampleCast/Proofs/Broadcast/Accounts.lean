import SampleCast.Proofs.Broadcast.Log
import SampleCast.Proofs.Producer.Tape

/-! The counters of a whole run.
When a server is finished its counters agree with what has become of its connections and with what
its source has delivered. Main statement: `run_accounts`. -/

namespace SampleCast

open Metrics (Event Counter tally)

variable {σ : Type} {source : SampleSource σ} {station : Station} {s : σ}

theorem sum_range_map {α : Type} (xs : List α) {g : Nat → Nat} {G : α → Nat}
    (h : ∀ i x, xs[i]? = some x → g i = G x) :
    ((List.range xs.length).map g).sum = (xs.map G).sum := by
  congr 1
  refine List.ext_getElem (by simp) fun i hi hi' => ?_
  rw [List.getElem_map, List.getElem_map, List.getElem_range]
  exact h i _ (List.getElem?_eq_getElem _)

theorem sum_map_filterMap {α β : Type} (xs : List α) (f : α → Option β) (F : β → Nat) :
    ((xs.filterMap f).map F).sum = (xs.map fun x => ((f x).map F).getD 0).sum := by
  induction xs with
  | nil => rfl
  | cons x xs ih => cases hx : f x <;> simp [hx, ih]

theorem sum_map_ite {α : Type} (xs : List α) (p : α → Bool) :
    (xs.map fun x => if p x then 1 else 0).sum = xs.countP p := by
  induction xs with
  | nil => rfl
  | cons x xs ih => cases hx : p x <;> simp [hx, ih, Nat.add_comm]

namespace Broadcast

structure Finished (b : Broadcast σ) : Prop where
  acceptor : b.acceptor = .closed
  producer : ∃ r, b.producer.phase = .ended r
  connections : ∀ (i : Nat) (c : Connection), b.connections[i]? = some c → ∃ o, c.feeder = .over o

theorem finished_of_result? {b : Broadcast σ} (h : b.result?.isSome) : b.Finished := by
  obtain ⟨res, hres⟩ := Option.isSome_iff_exists.mp h
  obtain ⟨r, hr, hres⟩ := Option.bind_eq_some_iff.mp hres
  split_ifs at hres with hcond
  obtain ⟨hclosed, hall⟩ := hcond
  refine ⟨hclosed, ?_, ?_⟩
  · unfold Producer.result? at hr
    split at hr
    · exact ⟨_, ‹_›⟩
    · cases hr
  · intro i c hc
    have hover := List.all_eq_true.mp hall c (List.mem_of_getElem? hc)
    unfold isOver Connection.outcome? at hover
    split at hover
    · exact ⟨_, ‹_›⟩
    · cases hover

end Broadcast

namespace Course

variable {r : Course σ} {i : Nat} {c : Connection}

def reports (r : Course σ) : List ConnectionReport :=
  r.present.connections.filterMap (·.feeder.report?)

def seats (r : Course σ) : List Seat :=
  (List.range r.present.connections.length).filterMap r.joined?

namespace Logged

theorem read (h : r.Logged) (k : Counter) :
    k.read r.present.hub.metrics = UInt64.ofNat (tally k.weight r.log) := by
  rw [h.metrics, k.read_foldl]
  cases k <;> exact UInt64.zero_add _

theorem tally_eq (h : r.Logged) (w : Event → Nat) :
    tally w r.log = r.present.hub.barrier.generation * w .published +
      r.present.connections.length * w .accepted +
      ((List.range r.present.connections.length).map fun i => tally w (r.logOf i)).sum := by
  rw [Metrics.tally_perm h.shuffle, Metrics.tally_append, Metrics.tally_append,
    Metrics.tally_replicate, Metrics.tally_replicate, Metrics.tally_flatMap]

end Logged

structure Over (r : Course σ) (i : Nat) (c : Connection) (l : Connection.Life) : Prop where
  settled : l.Settled
  present : l.present = c
  log : l.log = r.logOf i
  joined : l.joined? = r.joined? i
  past : l.past = r.moves i
  failures : l.failures = r.failures i
  length_failures_le : l.failures.length ≤ 1

def AllOver (r : Course σ) : Prop :=
  ∀ i c, r.present.connections[i]? = some c → ∃ l, r.Over i c l

theorem allOver_of_finished (schedule : List Broadcast.Action)
    (h : (run source station s schedule).present.Finished) :
    (run source station s schedule).AllOver := by
  intro i c hc
  obtain ⟨incoming, turns, hpresent, hpast, hjoined, -, -, hfailures⟩ :=
    exists_life source station s schedule hc
  obtain ⟨o, ho⟩ := h.connections i c hc
  rw [← hpresent] at ho
  have hlog := congrArg (List.flatMap Connection.Move.events) hpast
  exact ⟨_, Connection.Life.settled station incoming turns ho, hpresent, hlog, hjoined, hpast,
    hfailures, (Connection.Life.balance station incoming turns).length_failures_le⟩

namespace Logged

/-- A counter that only the connections count is the sum over their logs. -/
theorem read_connections (h : r.Logged) {k : Counter} (hp : k.weight .published = 0)
    (ha : k.weight .accepted = 0) : k.read r.present.hub.metrics =
      UInt64.ofNat ((List.range r.present.connections.length).map fun i =>
        tally k.weight (r.logOf i)).sum := by
  rw [h.read, h.tally_eq, hp, ha, Nat.mul_zero, Nat.mul_zero, Nat.zero_add]

theorem read_reports (h : r.Logged) {k : Counter} (hp : k.weight .published = 0)
    (ha : k.weight .accepted = 0) (F : ConnectionReport → Nat)
    (hF : ∀ i c, r.present.connections[i]? = some c →
      tally k.weight (r.logOf i) = (c.feeder.report?.map F).getD 0) :
    k.read r.present.hub.metrics = UInt64.ofNat (r.reports.map F).sum := by
  rw [h.read_connections hp ha, sum_range_map _ hF, reports, sum_map_filterMap]

theorem tally_of_forall (h : r.Logged) {w : Event → Nat} {k : Nat}
    (hk : ∀ i c, r.present.connections[i]? = some c → tally w (r.logOf i) = k) :
    tally w r.log = r.present.hub.barrier.generation * w .published +
      r.present.connections.length * w .accepted + r.present.connections.length * k := by
  rw [h.tally_eq, sum_range_map (G := fun _ => k) _ hk]
  simp

theorem read_server (h : r.Logged) {k : Counter} (hk : ∀ i c, r.present.connections[i]? = some c →
    tally k.weight (r.logOf i) = 0) : k.read r.present.hub.metrics =
      UInt64.ofNat (r.present.hub.barrier.generation * k.weight .published +
        r.present.connections.length * k.weight .accepted) := by
  rw [h.read, h.tally_of_forall hk, Nat.mul_zero, Nat.add_zero]

theorem handshakeFailures (h : r.Logged) (ho : r.AllOver) :
    r.present.hub.metrics.handshakeFailures + UInt64.ofNat r.seats.length =
      UInt64.ofNat r.present.connections.length := by
  have hread : r.present.hub.metrics.handshakeFailures = _ :=
    h.read_connections (k := .handshakeFailures) rfl rfl
  have hseats : r.seats.length = ((List.range r.present.connections.length).map fun i =>
      ((r.joined? i).map fun _ => 1).getD 0).sum := by
    rw [← sum_map_filterMap, ← seats]
    simp
  have hboth : ((List.range r.present.connections.length).map fun i =>
      tally Counter.handshakeFailures.weight (r.logOf i) +
        ((r.joined? i).map fun _ => 1).getD 0).sum = r.present.connections.length := by
    rw [sum_range_map (G := fun _ => 1)]
    · simp
    · intro i c hc
      obtain ⟨l, hl⟩ := ho i c hc
      have hone := hl.settled.handshake
      rw [hl.log, hl.joined] at hone
      cases hj : r.joined? i <;> simpa [hj] using hone
  rw [hread, hseats, ← UInt64.ofNat_add, ← List.sum_map_add, hboth]

/-- Each error is that of one connection, whose only failed write came before its end. -/
theorem sendErrors (h : r.Logged) (ho : r.AllOver) :
    ∃ blamed : List Nat,
      r.present.hub.metrics.sendErrors = UInt64.ofNat blamed.length ∧ blamed.Nodup ∧
      ∀ i ∈ blamed, ∃ v ∈ r.moves i, ∃ f, v.failed? = some f ∧ r.failures i = [f] ∧
        v.before.queue.closed = false ∧ v.before.hungUp = false ∧ f.isDisconnect = false := by
  refine ⟨(List.range r.present.connections.length).filter fun i =>
    tally Counter.sendErrors.weight (r.logOf i) = 1, ?_, List.nodup_range.filter _, ?_⟩
  · have hread : r.present.hub.metrics.sendErrors = _ :=
      h.read_connections (k := .sendErrors) rfl rfl
    have hmap : ((List.range r.present.connections.length).map fun i =>
        tally Counter.sendErrors.weight (r.logOf i)) =
          (List.range r.present.connections.length).map fun i =>
            if tally Counter.sendErrors.weight (r.logOf i) = 1 then 1 else 0 := by
      refine List.map_congr_left fun i hi => ?_
      obtain ⟨l, hl⟩ := ho i _ (List.getElem?_eq_getElem (List.mem_range.mp hi))
      rw [← hl.log]
      rcases hl.settled.errors with he | ⟨he, -⟩ <;> simp [he]
    rw [hread, hmap, ← List.countP_eq_length_filter, ← sum_map_ite]
    simp
  · intro i hi
    obtain ⟨hrange, hone⟩ := List.mem_filter.mp hi
    obtain ⟨l, hl⟩ := ho i _ (List.getElem?_eq_getElem (List.mem_range.mp hrange))
    rw [decide_eq_true_eq, ← hl.log] at hone
    rcases hl.settled.errors with he | ⟨-, v, hv, f, hfail, hopen⟩
    · rw [he] at hone
      cases hone
    · have hmem : f ∈ l.failures := List.mem_filterMap.mpr ⟨v, hv, hfail⟩
      refine ⟨v, hl.past ▸ hv, f, hfail, ?_, hopen⟩
      obtain ⟨g, hg⟩ := List.length_eq_one_iff.mp
        (Nat.le_antisymm hl.length_failures_le (List.length_pos_of_mem hmem))
      rw [hg] at hmem
      rw [← hl.failures, hg, List.mem_singleton.mp hmem]

end Logged

theorem length_blocks_of_ended (hpub : r.Publication station) (ht : r.Taped source station s)
    {res : Except ProducerError ProducerStats} (hp : r.present.producer.phase = .ended res) :
    r.present.hub.barrier.generation =
      ((r.deliveries source station).filterMap (Delivery.block? station)).length := by
  have hframes := ht.follows.frames
  rw [Producer.pending, hp, List.append_nil] at hframes
  have hlen : r.published.length = r.present.hub.slot.generation := by
    rw [← List.length_map (f := (·.generation)), hpub.generations, List.length_range']
  have hslot := hpub.agreement.slot
  rw [hp] at hslot
  rw [← Tape.length_frames, ← hframes, List.length_map, hlen, hslot]
  rfl

theorem run_accounts (source : SampleSource σ) (station : Station) (s : σ)
    (schedule : List Broadcast.Action) :
    let r := run source station s schedule
    let m := r.present.hub.metrics
    r.present.result?.isSome →
      m.connectionsAccepted = UInt64.ofNat r.present.connections.length ∧
      m.connectionsAccepted = m.handshakeFailures + UInt64.ofNat r.seats.length ∧
      m.framesSent = UInt64.ofNat (r.reports.map (·.sender.frames)).sum ∧
      m.bytesSent = UInt64.ofNat (r.reports.map (·.sender.bytes)).sum ∧
      m.overflowDrops = UInt64.ofNat (r.reports.countP (·.reason.isOverflow)) ∧
      m.invariantViolations = UInt64.ofNat (r.reports.countP (·.reason.isViolation)) ∧
      m.generationsPublished = UInt64.ofNat r.present.hub.barrier.generation ∧
      r.present.hub.barrier.generation =
        ((r.deliveries source station).filterMap (Delivery.block? station)).length ∧
      ∃ blamed : List Nat, m.sendErrors = UInt64.ofNat blamed.length ∧ blamed.Nodup ∧
        ∀ i ∈ blamed, ∃ v ∈ r.moves i, ∃ f, v.failed? = some f ∧ r.failures i = [f] ∧
          v.before.queue.closed = false ∧ v.before.hungUp = false ∧ f.isDisconnect = false := by
  intro r m hresult
  have hfinished := Broadcast.finished_of_result? hresult
  have hlogged : r.Logged := logged schedule
  have hover : r.AllOver := allOver_of_finished schedule hfinished
  have haccepted : m.connectionsAccepted = UInt64.ofNat r.present.connections.length := by
    have hread := hlogged.read_server (k := .connectionsAccepted) fun i c hc => by
      obtain ⟨l, hl⟩ := hover i c hc
      rw [← hl.log, hl.settled.accepted]
    simpa [Counter.weight, Counter.read] using hread
  have hpublished : m.generationsPublished = UInt64.ofNat r.present.hub.barrier.generation := by
    have hread := hlogged.read_server (k := .generationsPublished) fun i c hc => by
      obtain ⟨l, hl⟩ := hover i c hc
      rw [← hl.log, hl.settled.published]
    simpa [Counter.weight, Counter.read] using hread
  obtain ⟨res, hended⟩ := hfinished.producer
  refine ⟨haccepted, ?_, ?_, ?_, ?_, ?_, hpublished,
    length_blocks_of_ended (publication schedule) (taped schedule) hended, hlogged.sendErrors hover⟩
  · rw [haccepted]
    exact (hlogged.handshakeFailures hover).symm
  · refine hlogged.read_reports (k := .framesSent) rfl rfl _ ?_
    intro i c hc
    obtain ⟨l, hl⟩ := hover i c hc
    rw [← hl.log, hl.settled.frames, hl.present]
  · refine hlogged.read_reports (k := .bytesSent) rfl rfl _ ?_
    intro i c hc
    obtain ⟨l, hl⟩ := hover i c hc
    rw [← hl.log, hl.settled.bytes, hl.present]
  · rw [← sum_map_ite]
    refine hlogged.read_reports (k := .overflowDrops) rfl rfl _ ?_
    intro i c hc
    obtain ⟨l, hl⟩ := hover i c hc
    rw [← hl.log, hl.settled.overflow, hl.present]
  · rw [← sum_map_ite]
    refine hlogged.read_reports (k := .invariantViolations) rfl rfl _ ?_
    intro i c hc
    obtain ⟨l, hl⟩ := hover i c hc
    rw [← hl.log, hl.settled.violated, hl.present]

open Broadcast.Action in
def twoClients : List Broadcast.Action :=
  [look, arrive [], look] ++ List.replicate 4 (feed 0 (.upTo 1)) ++
    [arrive [.chunk [0, 0, 0, 1, 0, 0, 0, 1]]] ++ List.replicate 8 (feed 1 (.upTo 17)) ++
    List.replicate 4 produce ++ List.replicate 5 (feed 1 (.upTo 1)) ++
    List.replicate 3 (send 1 (.upTo 50)) ++ List.replicate 4 produce ++
    List.replicate 4 (feed 1 (.upTo 1)) ++ List.replicate 4 (send 1 (.upTo 0)) ++
    List.replicate 8 (feed 1 (.upTo 1)) ++ [stop, produce, look]

theorem run_accounts_twoClients :
    let r := run Broadcast.pulse Broadcast.pulseStation () twoClients
    let m := r.present.hub.metrics
    r.present.result?.isSome ∧ m.connectionsAccepted = 2 ∧
      m.connectionsAccepted = m.handshakeFailures + 1 ∧ m.framesSent = 1 ∧ m.bytesSent = 50 ∧
      m.overflowDrops = 0 ∧ m.invariantViolations = 0 ∧ m.generationsPublished = 2 ∧
      ∃ blamed : List Nat, UInt64.ofNat blamed.length = 1 ∧ ∀ i ∈ blamed,
        ∃ f, r.failures i = [f] ∧ f.isDisconnect = false := by
  have hresult : (run Broadcast.pulse Broadcast.pulseStation ()
      twoClients).present.result?.isSome := by decide +kernel
  have hlength : (run Broadcast.pulse Broadcast.pulseStation ()
      twoClients).present.connections.length = 2 := by decide +kernel
  have hseats : (run Broadcast.pulse Broadcast.pulseStation () twoClients).seats.length = 1 := by
    decide +kernel
  have hreports : (run Broadcast.pulse Broadcast.pulseStation () twoClients).reports.map
      (fun p => (p.sender, p.reason)) = [(⟨1, 50⟩, .linkDown)] := by decide +kernel
  have hgeneration : (run Broadcast.pulse Broadcast.pulseStation ()
      twoClients).present.hub.barrier.generation = 2 := by decide +kernel
  have herrors : (run Broadcast.pulse Broadcast.pulseStation ()
      twoClients).present.hub.metrics.sendErrors = 1 := by decide +kernel
  obtain ⟨haccepted, hjoined, hframes, hbytes, hoverflow, hviolated, hpublished, -, blamed, hblamed,
    -, hfails⟩ := run_accounts Broadcast.pulse Broadcast.pulseStation () twoClients hresult
  obtain ⟨report, hone, hreport⟩ := List.map_eq_singleton_iff.mp hreports
  obtain ⟨hsender, hreason⟩ := Prod.mk.inj hreport
  rw [hlength] at haccepted
  rw [hseats] at hjoined
  rw [hone] at hframes hbytes hoverflow hviolated
  rw [hgeneration] at hpublished
  refine ⟨hresult, haccepted, hjoined, ?_, ?_, ?_, ?_, hpublished, blamed, ?_, ?_⟩
  · rw [hframes, List.map_singleton, hsender]
    rfl
  · rw [hbytes, List.map_singleton, hsender]
    rfl
  · rw [hoverflow, List.countP_singleton, hreason]
    rfl
  · rw [hviolated, List.countP_singleton, hreason]
    rfl
  · rw [← hblamed, herrors]
  · intro i hi
    obtain ⟨v, -, f, -, hf, -, -, hdisconnect⟩ := hfails i hi
    exact ⟨f, hf, hdisconnect⟩

end Course
end SampleCast
