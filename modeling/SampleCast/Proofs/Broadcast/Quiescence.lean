import SampleCast.Proofs.Broadcast.Accounts
import SampleCast.Proofs.Broadcast.Seating

/-! The quiet after a run.
A server that has an answer waits for nobody any more. The acceptor closes only when the server has
stopped; it forgets the connections that are over whenever it takes another one, and the server
waits for those that it remembers. Main statement: `run_quiesces`, that the members of the barrier
are always the workers between joining and leaving, and that when the server answers it has stopped,
every connection is over, nobody is left at the barrier and no connection is counted as active. -/

namespace SampleCast

open Metrics (Event Counter tally)

variable {σ : Type} {source : SampleSource σ} {station : Station} {s : σ}

theorem Connection.FeederStep.ne_over {hub hub' : Hub} {c c' : Connection}
    (h : FeederStep station hub c hub' c') (o : ConnectionOutcome) : c.feeder ≠ .over o := by
  cases h <;> simp [*]

namespace Broadcast

variable {b b' : Broadcast σ} {i : Nat}

theorem Step.stopped (h : Step source station b b') (hb : b.hub.barrier.stopped = true) :
    b'.hub.barrier.stopped = true := by
  cases h with
  | @produce hub p hp =>
    change hub.barrier.stopped = true
    rcases hp.barrier with he | he | he <;> rw [he]
    · exact hb
    · rfl
    · exact hb
  | @feed i c c' hub hc hf =>
    change hub.barrier.stopped = true
    rcases hf.barrier with he | ⟨op, -, he⟩ <;> rw [he]
    · exact hb
    · exact Barrier.stopped_apply hb op
  | send hc hs => exact (congrArg Barrier.stopped hs.barrier).trans hb
  | look | arrive => exact hb
  | stop => rfl

theorem Step.closed (h : Step source station b b')
    (hb : b.acceptor = .closed → b.hub.barrier.stopped = true) :
    b'.acceptor = .closed → b'.hub.barrier.stopped = true := by
  have hstopped := h.stopped
  cases h with
  | look ha => exact ha
  | arrive => exact nofun
  | produce | feed | send | stop => exact fun hc => hstopped (hb hc)

theorem Step.over (h : Step source station b b') {c : Connection} {o : ConnectionOutcome}
    (hc : b.connections[i]? = some c) (ho : c.feeder = .over o) :
    ∃ c', b'.connections[i]? = some c' ∧ c'.feeder = .over o := by
  rcases h.connection i with hsame | ⟨hnone, -⟩ | ⟨d, d', hd, hd', hf | hs⟩
  · exact ⟨c, hsame.trans hc, ho⟩
  · rw [hc] at hnone
    cases hnone
  · cases hc.symm.trans hd
    exact absurd ho (hf.ne_over o)
  · cases hc.symm.trans hd
    exact ⟨d', hd', hs.feeder.trans ho⟩

def isOverAt (b : Broadcast σ) (i : Nat) : Bool := b.connections[i]?.any isOver

theorem isOver_iff {c : Connection} : isOver c = true ↔ ∃ o, c.feeder = .over o := by
  unfold isOver Connection.outcome?
  split
  · next o ho => simp [ho]
  · next hn => simpa using fun o ho => hn o ho

theorem isOverAt_iff : b.isOverAt i = true ↔
    ∃ c o, b.connections[i]? = some c ∧ c.feeder = .over o := by
  simp [isOverAt, Option.any_eq_true, isOver_iff]

theorem Step.isOverAt (h : Step source station b b') (hi : b.isOverAt i = true) :
    b'.isOverAt i = true := by
  obtain ⟨c, o, hc, ho⟩ := isOverAt_iff.mp hi
  obtain ⟨c', hc', ho'⟩ := h.over hc ho
  exact isOverAt_iff.mpr ⟨c', o, hc', ho'⟩

theorem result?_cases {res : Except BroadcastError Report} (h : b.result? = some res) :
    (∃ stats, b.producer.result? = some (.ok stats) ∧ res = .ok ⟨stats, b.hub.metrics⟩) ∨
    (∃ e, b.producer.result? = some (.error e) ∧ res = .error (.producer e)) := by
  obtain ⟨r, hr, h⟩ := Option.bind_eq_some_iff.mp h
  split_ifs at h with hcond
  cases r with
  | ok stats =>
    cases h
    exact .inl ⟨stats, hr, rfl⟩
  | error e =>
    cases h
    exact .inr ⟨e, hr, rfl⟩

theorem all_isOver_iff : b.connections.all isOver = true ↔
    ∀ i < b.connections.length, b.isOverAt i = true := by
  rw [List.all_eq_true]
  constructor
  · intro h i hi
    rw [isOverAt, List.getElem?_eq_getElem hi]
    exact h _ (List.getElem_mem hi)
  · intro h c hc
    obtain ⟨i, hi, rfl⟩ := List.getElem_of_mem hc
    have hover := h i hi
    rwa [isOverAt, List.getElem?_eq_getElem hi] at hover

theorem isSome_result?_iff : b.result?.isSome ↔
    b.acceptor = .closed ∧ b.producer.result?.isSome ∧
      ∀ i < b.connections.length, b.isOverAt i = true := by
  rw [← all_isOver_iff, result?]
  cases hr : b.producer.result? with
  | none => simp
  | some r => cases r <;> simp

end Broadcast

/-- The connections that the acceptor remembers: it forgets what is over when it takes one. -/
def Moment.remembered (remembered : List Nat) (m : Moment σ) : List Nat :=
  match m.action with
  | .arrive _ =>
    remembered.filter (fun i => !m.before.isOverAt i) ++ [m.before.connections.length]
  | _ => remembered

namespace Course

def remembered (r : Course σ) : List Nat := r.past.foldl Moment.remembered []

variable {r : Course σ} {a : Broadcast.Action} {b : Broadcast σ}

theorem remembered_concat : remembered ⟨r.past ++ [⟨r.present, a, b⟩], b⟩ =
    Moment.remembered r.remembered ⟨r.present, a, b⟩ := by
  rw [remembered, List.foldl_append]
  rfl

structure Remembers (r : Course σ) : Prop where
  taken : ∀ i ∈ r.remembered, i < r.present.connections.length
  rest : ∀ i < r.present.connections.length, i ∈ r.remembered ∨ r.present.isOverAt i = true

namespace Remembers

theorem start : Remembers { present := .start station s : Course σ } :=
  ⟨nofun, nofun⟩

theorem keep (h : r.Remembers) (hb : Broadcast.Step source station r.present b)
    (hr : remembered ⟨r.past ++ [⟨r.present, a, b⟩], b⟩ = r.remembered)
    (hl : b.connections.length = r.present.connections.length) :
    Remembers ⟨r.past ++ [⟨r.present, a, b⟩], b⟩ := by
  constructor
  · intro i hi
    rw [hr] at hi
    exact hl ▸ h.taken i hi
  · intro i hi
    change i < b.connections.length at hi
    rw [hr]
    rw [hl] at hi
    exact (h.rest i hi).imp_right hb.isOverAt

theorem arrive {incoming : List Reading} (h : r.Remembers)
    (hb : r.present.step source station (.arrive incoming) = some b) :
    Remembers ⟨r.past ++ [⟨r.present, .arrive incoming, b⟩], b⟩ := by
  have hstep := Broadcast.step_of_eq_some hb
  have hl : b.connections.length = r.present.connections.length + 1 := by
    rw [Broadcast.step_arrive_eq_some hb]
    exact List.length_append
  constructor
  · intro i hi
    change i < b.connections.length
    rw [remembered_concat, Moment.remembered, List.mem_append, List.mem_filter,
      List.mem_singleton] at hi
    rw [hl]
    rcases hi with ⟨hi, -⟩ | rfl
    · exact Nat.lt_succ_of_lt (h.taken i hi)
    · exact Nat.lt_succ_self _
  · intro i hi
    change i < b.connections.length at hi
    rw [remembered_concat, Moment.remembered, List.mem_append, List.mem_filter,
      List.mem_singleton]
    rw [hl] at hi
    rcases Nat.lt_succ_iff_lt_or_eq.mp hi with hi | hi
    · -- What the acceptor forgets now is over now, and stays so.
      rcases h.rest i hi with hmem | hover
      · cases hover : r.present.isOverAt i with
        | true => exact .inr (hstep.isOverAt hover)
        | false => exact .inl (.inl ⟨hmem, rfl⟩)
      · exact .inr (hstep.isOverAt hover)
    · exact .inl (.inr hi)

theorem step (h : r.Remembers) (hb : r.present.step source station a = some b) :
    Remembers ⟨r.past ++ [⟨r.present, a, b⟩], b⟩ := by
  have hstep := Broadcast.step_of_eq_some hb
  cases a with
  | arrive incoming => exact h.arrive hb
  | produce =>
    obtain ⟨hub, p, -, rfl⟩ := Broadcast.step_produce_eq_some hb
    exact h.keep hstep remembered_concat rfl
  | look =>
    obtain ⟨a, -, rfl⟩ := Broadcast.step_look_eq_some hb
    exact h.keep hstep remembered_concat rfl
  | feed i peer | send i peer =>
    obtain ⟨c, hub, c', -, -, rfl⟩ := Broadcast.onConnection_eq_some hb
    exact h.keep hstep remembered_concat List.length_set
  | stop =>
    cases hb
    exact h.keep hstep remembered_concat rfl

end Remembers

theorem remembers (schedule : List Broadcast.Action) :
    Remembers (run source station s schedule) :=
  act_induction (P := Remembers) .start (fun _ _ _ h hb => h.step hb) schedule

/-- The server answers when the acceptor has closed, the producer has ended, and the connections
that the acceptor remembers are over. The others were over before. -/
theorem answers_iff (schedule : List Broadcast.Action) :
    let r := run source station s schedule
    r.present.result?.isSome ↔ r.present.acceptor = .closed ∧ r.present.producer.result?.isSome ∧
      ∀ i ∈ r.remembered, r.present.isOverAt i = true := by
  intro r
  have hr : r.Remembers := remembers schedule
  rw [Broadcast.isSome_result?_iff]
  refine and_congr_right fun _ => and_congr_right fun _ => ⟨?_, ?_⟩
  · intro h i hi
    exact h i (hr.taken i hi)
  · intro h i hi
    exact (hr.rest i hi).elim (h i) id

theorem stopped_of_closed (schedule : List Broadcast.Action) :
    let b := (run source station s schedule).present
    b.acceptor = .closed → b.hub.barrier.stopped = true :=
  run_induction (P := fun r => r.present.acceptor = .closed → r.present.hub.barrier.stopped = true)
    nofun (fun _ _ _ h hb => hb.closed h) schedule

theorem Logged.activeConnections (h : r.Logged) (ho : r.AllOver) :
    r.present.hub.metrics.activeConnections = 0 := by
  have hclosed : tally Event.closings r.log = r.present.connections.length := by
    rw [h.tally_of_forall (k := 1) fun i c hc => ?_]
    · simp [Event.closings]
    · obtain ⟨l, hl⟩ := ho i c hc
      rw [← hl.log, hl.settled.closed]
  have haccepted : tally Counter.connectionsAccepted.weight r.log =
      r.present.connections.length := by
    rw [h.tally_of_forall (k := 0) fun i c hc => ?_]
    · simp [Counter.weight]
    · obtain ⟨l, hl⟩ := ho i c hc
      rw [← hl.log, hl.settled.accepted]
  have hbalance := Metrics.activeConnections_foldl r.log {}
  rw [← h.metrics, hclosed, haccepted] at hbalance
  exact (UInt64.add_left_inj _).mp hbalance

theorem not_mem_alive_of_returned (schedule : List Broadcast.Action) {i : Nat} {c : Connection}
    {o : ConnectionOutcome} {seat : Seat}
    (hc : (run source station s schedule).present.connections[i]? = some c)
    (ho : c.feeder = .returned o ∨ c.feeder = .over o)
    (hj : (run source station s schedule).joined? i = some seat) :
    seat.worker ∉ (run source station s schedule).present.hub.barrier.alive := by
  have hgone : ¬ c.feeder.IsUnjoined ∧ c.feeder.worker? = none := by
    rcases ho with ho | ho <;> rw [ho] <;> exact ⟨id, rfl⟩
  exact not_mem_alive_of_gone schedule hc hgone.1 hgone.2 hj

theorem alive_eq_nil (schedule : List Broadcast.Action)
    (h : (run source station s schedule).present.Finished) :
    (run source station s schedule).present.hub.barrier.alive = [] := by
  refine List.eq_nil_iff_forall_not_mem.mpr fun w hw => ?_
  obtain ⟨i, seat, hj, rfl, -⟩ := (mem_alive_iff source station s schedule w).mp hw
  obtain ⟨c, hc⟩ := exists_of_joined? schedule hj
  obtain ⟨o, ho⟩ := h.connections i c hc
  exact not_mem_alive_of_returned schedule hc (.inr ho) hj hw

theorem run_quiesces (source : SampleSource σ) (station : Station) (s : σ)
    (schedule : List Broadcast.Action) :
    let r := run source station s schedule
    let b := r.present
    let barrier := b.hub.barrier
    (∀ w, w ∈ barrier.alive ↔
      ∃ i seat, r.joined? i = some seat ∧ seat.worker = w ∧ r.left? i = none) ∧
    (∀ i seat, r.joined? i = some seat → (seat.worker ∈ barrier.alive ↔ r.left? i = none)) ∧
    (∀ w, w ∈ barrier.pending ∨ w ∈ barrier.done ∨ w ∈ barrier.active → w ∈ barrier.alive) ∧
    (∀ i c o seat, b.connections[i]? = some c →
      c.feeder = .returned o ∨ c.feeder = .over o → r.joined? i = some seat →
      seat.worker ∉ barrier.alive ∧ seat.worker ∉ barrier.pending ∧
        seat.worker ∉ barrier.done ∧ seat.worker ∉ barrier.active) ∧
    (b.result?.isSome ↔ b.acceptor = .closed ∧ b.producer.result?.isSome ∧
      ∀ i ∈ r.remembered, b.isOverAt i = true) ∧
    ∀ res, b.result? = some res →
      barrier.stopped = true ∧
      (∀ c ∈ b.connections, ∃ o, c.feeder = .over o) ∧
      barrier.alive = [] ∧
      b.hub.metrics.activeConnections = 0 ∧
      ∀ err, res = .error err ↔
        ∃ e, err = .producer e ∧ b.producer.result? = some (.error e) := by
  intro r b barrier
  have hmember : ∀ w, w ∈ barrier.pending ∨ w ∈ barrier.done ∨ w ∈ barrier.active →
      w ∈ barrier.alive := fun _ => Barrier.alive_of_counted
  refine ⟨mem_alive_iff source station s schedule,
    fun _ _ => mem_alive_iff_of_joined source station s schedule, hmember, ?_,
    answers_iff schedule, ?_⟩
  · intro i c o seat hc ho hj
    have hout : seat.worker ∉ barrier.alive := not_mem_alive_of_returned schedule hc ho hj
    exact ⟨hout, fun h => hout (hmember _ (.inl h)), fun h => hout (hmember _ (.inr (.inl h))),
      fun h => hout (hmember _ (.inr (.inr h)))⟩
  · intro res hres
    have hfinished : b.Finished := Broadcast.finished_of_result? (by rw [hres]; rfl)
    refine ⟨stopped_of_closed schedule hfinished.acceptor, ?_, alive_eq_nil schedule hfinished,
      (logged schedule).activeConnections (allOver_of_finished schedule hfinished), ?_⟩
    · intro c hc
      obtain ⟨i, hi⟩ := List.mem_iff_getElem?.mp hc
      exact hfinished.connections i c hi
    · intro err
      rcases Broadcast.result?_cases hres with ⟨stats, hp, rfl⟩ | ⟨e, hp, rfl⟩
      · simp [b, hp]
      · simp [b, hp, eq_comm]

def oneBlock : List Delivery := [⟨.ok 1, [7, 8], [true, false], false⟩]

open Broadcast.Action in
def lastBlock : List Broadcast.Action :=
  [look, arrive [], look] ++ List.replicate 4 (feed 0 (.upTo 1)) ++
    [arrive [.chunk [0, 0, 0, 1, 0, 0, 0, 1]]] ++ List.replicate 8 (feed 1 (.upTo 17)) ++
    List.replicate 4 produce ++ List.replicate 5 (feed 1 (.upTo 1)) ++
    List.replicate 3 produce ++ List.replicate 6 (feed 1 (.upTo 1)) ++
    List.replicate 4 (send 1 (.upTo 50)) ++ List.replicate 3 (feed 1 (.upTo 1)) ++ [look]

theorem run_quiesces_lastBlock :
    let r := run (.scripted 2 1000) Broadcast.pulseStation oneBlock lastBlock
    r.remembered = [1] ∧ r.left? 1 = some 1 ∧ 1 ∉ r.present.hub.barrier.alive ∧
      r.present.hub.barrier.stopped = true ∧ r.present.hub.barrier.alive = [] ∧
      r.present.hub.metrics.activeConnections = 0 ∧
      ∃ e, r.present.result? = some (.error (.producer e)) ∧
        r.present.producer.result? = some (.error e) := by
  have hremembered : (run (.scripted 2 1000) Broadcast.pulseStation oneBlock
      lastBlock).remembered = [1] := by decide +kernel
  have hjoined : (run (.scripted 2 1000) Broadcast.pulseStation oneBlock
      lastBlock).joined? 1 = some ⟨1, [1], 0, 0⟩ := by decide +kernel
  have hleft : (run (.scripted 2 1000) Broadcast.pulseStation oneBlock
      lastBlock).left? 1 = some 1 := by decide +kernel
  have hresult : (run (.scripted 2 1000) Broadcast.pulseStation oneBlock
      lastBlock).present.result? =
        some (.error (.producer (.source (.device "script exhausted")))) := by decide +kernel
  obtain ⟨-, -, -, hreturned, -, hend⟩ := run_quiesces (.scripted 2 1000) Broadcast.pulseStation
    oneBlock lastBlock
  obtain ⟨hstopped, hover, halive, hactive, herror⟩ := hend _ hresult
  obtain ⟨c, hc⟩ := exists_of_joined? lastBlock hjoined
  obtain ⟨o, ho⟩ := hover c (List.mem_of_getElem? hc)
  obtain ⟨e, he, hproducer⟩ := (herror _).mp rfl
  cases he
  exact ⟨hremembered, hleft, (hreturned 1 c o _ hc (.inr ho) hjoined).1, hstopped, halive, hactive,
    _, hresult, hproducer⟩

end Course
end SampleCast
