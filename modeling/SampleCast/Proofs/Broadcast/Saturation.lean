import SampleCast.Proofs.Broadcast.Seating
import SampleCast.Proofs.Connection.Saturation

/-! A connection is dropped only when it is full.
A connection that is closed for an overflow was refused one push. `Dropped` says what was there at
that push: the queue was open and had no room left, and the frames in it are the ones that were
queued and not taken. So the connection has acknowledged as many generations as there is room for
and as its sender had taken, and the one it gives up is the next. Main statement: `run_overflows`,
that so it is in every course, that such a connection leaves the barrier first of all, and that no
block is refused while there is room. -/

namespace SampleCast

variable {σ : Type} {source : SampleSource σ} {station : Station} {s : σ}

namespace Course

def acknowledged (r : Course σ) (i : Nat) : List Nat :=
  (r.moves i).filterMap Connection.Move.acknowledged?

/-- Connection `i`, which joined with `joined`, was refused generation `g` at move `m`, for want of
room and for nothing else. -/
structure Dropped (room : Nat) (r : Course σ) (i : Nat) (joined : Seat) (g : Nat)
    (before : List Connection.Move) (m : Connection.Move) (rest : List Connection.Move) : Prop where
  moves : r.moves i = before ++ m :: rest
  push : ∃ seat frame, m.before.feeder = .queueing seat g frame ∧
    m.after.feeder = .closing seat (.overflow g) .leaving
  isOpen : m.before.queue.closed = false
  full : m.before.queue.toList.length = room
  contents : r.frames i = before.filterMap Connection.Move.taken? ++ m.before.queue.toList
  acknowledged : r.acknowledged i = List.range' (joined.lastSeen + 1)
    (room + (before.filterMap Connection.Move.taken?).length)
  next : g = (r.acknowledged i).getLastD joined.lastSeen + 1
  unacknowledged : g ∉ r.acknowledged i

variable {i g : Nat} {c : Connection} {joined seat : Seat} {frame : Frame}
  {before rest : List Connection.Move} {m : Connection.Move}

theorem getLastD_range' (a n : Nat) : (List.range' (a + 1) n).getLastD a = a + n := by
  cases n with
  | zero => rfl
  | succ n =>
    rw [List.range'_1_concat, List.getLastD_concat]
    omega

/-- The generation that a feeder is about to queue is the one after all that it has queued. -/
theorem eq_of_queueing (schedule : List Broadcast.Action)
    (hc : (run source station s schedule).present.connections[i]? = some c)
    (hp : c.feeder = .queueing seat g frame) :
    let r := run source station s schedule
    ∃ joined, r.joined? i = some joined ∧ g = joined.lastSeen + (r.queued i).length + 1 := by
  intro r
  obtain ⟨hpub, hserves⟩ : r.Publication station ∧ ∀ i, r.Serves station i := serves schedule
  obtain ⟨joined, hj, -, hn⟩ :=
    ((hserves i).ledger c hc).reached seat seat.lastSeen (by rw [hp]; rfl)
  exact ⟨joined, hj, by rw [eq_succ_of_queueing hpub hc hp, hn]⟩

theorem head?_joined_append (hj : (before.filterMap Connection.Move.joined?).head? = some joined) :
    ((before ++ rest).filterMap Connection.Move.joined?).head? = some joined := by
  rw [List.filterMap_append, List.head?_append, hj, Option.some_or]

theorem acknowledged_of_report? (schedule : List Broadcast.Action) {report : ConnectionReport}
    (hc : (run source station s schedule).present.connections[i]? = some c)
    (hr : c.feeder.report? = some report) :
    report.acknowledged + report.reason.unacknowledged =
      ((run source station s schedule).queued i).length := by
  obtain ⟨incoming, turns, rfl, -, -, -, hqueued, -⟩ := exists_life source station s schedule hc
  have hcredit := (Connection.Life.balance station incoming turns).credit _
    (FeederPhase.credit?_of_report? hr)
  rw [← hcredit, Connection.Life.frames, List.length_map, hqueued]

theorem exists_dropped (schedule : List Broadcast.Action)
    (hc : (run source station s schedule).present.connections[i]? = some c)
    (hr : c.feeder.reason? = some (.overflow g)) :
    let r := run source station s schedule
    ∃ joined before m rest, r.joined? i = some joined ∧
      Dropped station.queueRoom r i joined g before m rest ∧
      r.acknowledged i = (r.queued i).map (·.1) := by
  intro r
  obtain ⟨incoming, turns, rfl, hpast, hjoined, -, hqueued, -⟩ :=
    exists_life source station s schedule hc
  obtain ⟨before, m, rest, seat, frame, hrefused⟩ :=
    (Connection.Life.stock station incoming turns).refused g hr
  have hmoves : r.moves i = before ++ m :: rest := hpast.symm.trans hrefused.past
  have hacknowledged : r.acknowledged i = (r.queued i).map (·.1) := by
    rw [← hqueued, ← hrefused.acknowledged, acknowledged, ← hpast, Connection.Life.acknowledged]
  -- The push was made in an earlier course, and nothing was queued since.
  obtain ⟨earlier, hbefore, hm⟩ := exists_earlier_of_moves schedule hmoves
  obtain ⟨joined, hj, hg⟩ := eq_of_queueing earlier hm hrefused.found
  have hsame : (run source station s earlier).queued i = r.queued i := by
    rw [queued_eq_moves, hbefore, ← hrefused.queued, hqueued]
  have hjoin : r.joined? i = some joined := by
    rw [joined?_eq_moves, hbefore] at hj
    rw [joined?_eq_moves, hmoves]
    exact head?_joined_append hj
  have hframes : r.frames i =
      before.filterMap Connection.Move.taken? ++ m.before.queue.toList := by
    rw [frames, ← hqueued]
    exact hrefused.contents
  have hlength : (r.queued i).length =
      station.queueRoom + (before.filterMap Connection.Move.taken?).length := by
    rw [← List.length_map (f := (·.2)), ← frames, hframes, List.length_append, hrefused.full,
      Nat.add_comm]
  have hconsecutive : r.acknowledged i = List.range' (joined.lastSeen + 1) (r.queued i).length := by
    rw [hacknowledged]
    exact ((((serves schedule).2 i).ledger _ hc).since joined hjoin).consecutive
  refine ⟨joined, before, m, rest, hjoin, ?_, hacknowledged⟩
  constructor
  case moves => exact hmoves
  case push => exact ⟨seat, frame, hrefused.found, hrefused.left⟩
  case isOpen => exact hrefused.isOpen
  case full => exact hrefused.full
  case contents => exact hframes
  case acknowledged => rw [hconsecutive, hlength]
  case next => rw [hconsecutive, getLastD_range', hg, hsame]
  case unacknowledged =>
    rw [hconsecutive, hg, hsame, List.mem_range'_1]
    omega

theorem run_overflows (source : SampleSource σ) (station : Station) (s : σ)
    (schedule : List Broadcast.Action) (i : Nat) (c : Connection) :
    let r := run source station s schedule
    let barrier := r.present.hub.barrier
    r.present.connections[i]? = some c →
    (∀ g, c.feeder.reason? = some (.overflow g) →
      ∃ joined before m rest, r.joined? i = some joined ∧
        Dropped station.queueRoom r i joined g before m rest ∧
        (∀ report, c.feeder.report? = some report →
          report.acknowledged = (r.acknowledged i).length) ∧
        ((joined.worker ∉ barrier.alive ∧ joined.worker ∉ barrier.pending) ∨
          ∃ seat, c.feeder = .closing seat (.overflow g) .leaving ∧ seat.worker = joined.worker ∧
            ∀ hub peer, joined.worker ∉ (hub.leave joined.worker).barrier.pending ∧
              c.feed station hub peer = some (hub.leave joined.worker,
                { c with feeder := .closing seat (.overflow g) .recording }))) ∧
    ∀ seat g frame, c.feeder = .queueing seat g frame →
      c.queue.closed = false ∧ c.queue.toList.length ≤ station.queueRoom ∧
      (c.queue.push frame = (.overflow, c.queue) ↔ c.queue.toList.length = station.queueRoom) ∧
      (c.queue.toList.length < station.queueRoom → ∀ hub peer,
        ∃ q, c.feed station hub peer =
            some (hub, { c with queue := q, feeder := .acknowledging seat g }) ∧
          q.toList = c.queue.toList ++ [frame]) := by
  intro r barrier hc
  have hmember := membership schedule hc
  refine ⟨?_, ?_⟩
  · intro g hr
    obtain ⟨joined, before, m, rest, hj, hdropped, hacknowledged⟩ := exists_dropped schedule hc hr
    refine ⟨joined, before, m, rest, hj, hdropped, ?_, ?_⟩
    · intro report hreport
      have hreason := (FeederPhase.reason?_of_report? hreport).symm.trans hr
      have hcount := acknowledged_of_report? schedule hc hreport
      have hall : report.reason.unacknowledged = 0 := by
        rw [Option.some.inj hreason]
        rfl
      rw [hall, Nat.add_zero] at hcount
      rw [hacknowledged, List.length_map, hcount]
    · obtain ⟨hu, hw | ⟨seat, hp⟩⟩ := FeederPhase.worker?_of_reason? hr
      · have hout : joined.worker ∉ barrier.alive := not_mem_alive_of_gone schedule hc hu hw hj
        exact .inl ⟨hout, fun h => hout (Barrier.alive_of_mem (Barrier.mem_pending.mp h))⟩
      · have hworker : seat.worker = joined.worker := by
          have hpresent := (hmember.present seat.worker (by rw [hp]; rfl)).1
          rw [hj] at hpresent
          exact (Option.some.inj hpresent).symm
        refine .inr ⟨seat, hp, hworker, fun hub peer => ⟨by simp [Hub.leave], ?_⟩⟩
        rw [← hworker, Connection.feed, hp]
        rfl
  · intro seat g frame hp
    obtain ⟨incoming, turns, rfl, -⟩ := exists_life source station s schedule hc
    have hready := (Connection.Life.stock station incoming turns).ready
      (Connection.Life.balance station incoming turns)
      (Connection.Life.membership station incoming turns) hp
    exact ⟨hready.isOpen, hready.length_le, hready.push_eq_overflow_iff frame,
      fun hlt hub peer => hready.feed_of_room hp hlt station hub peer⟩

def narrowStation : Station := ⟨{ pointsPerChannel := 1, bufferCapacity := 1 }, 2, 1000⟩

def firstPush : List Broadcast.Action := Broadcast.firstBlock ++ [.feed 0 (.upTo 1)]

def thirdPush : List Broadcast.Action :=
  firstPush ++ List.replicate 4 (.feed 0 (.upTo 1)) ++ [.send 0 (.upTo 1)] ++
    List.replicate 4 .produce ++ List.replicate 6 (.feed 0 (.upTo 1)) ++
    List.replicate 4 .produce ++ List.replicate 4 (.feed 0 (.upTo 1))

theorem run_overflows_narrow :
    (∃ c q, (run Broadcast.pulse narrowStation () firstPush).present.connections[0]? = some c ∧
      c.feed narrowStation default (.upTo 1) =
        some (default, { c with queue := q, feeder := .acknowledging ⟨1, [1], 0, 0⟩ 1 }) ∧
      q.toList = c.queue.toList ++ [⟨0, 1, 1, [8], [false]⟩]) ∧
    ∃ before m rest,
      Dropped narrowStation.queueRoom (run Broadcast.pulse narrowStation () thirdPush) 0
        ⟨1, [1], 0, 0⟩ 3 before m rest ∧
      1 ∉ (run Broadcast.pulse narrowStation () thirdPush).present.hub.barrier.pending := by
  have hfirst : ∃ c, (run Broadcast.pulse narrowStation () firstPush).present.connections[0]? =
      some c ∧ c.feeder = .queueing ⟨1, [1], 0, 0⟩ 1 ⟨0, 1, 1, [8], [false]⟩ ∧
      c.queue.toList.length < narrowStation.queueRoom := by
    refine ⟨_, rfl, ?_⟩
    decide +kernel
  have hsome : (run Broadcast.pulse narrowStation ()
      thirdPush).present.connections[0]?.isSome := by decide +kernel
  have hthird : ((run Broadcast.pulse narrowStation () thirdPush).present.connections[0]?).all
      fun c => c.feeder.reason? = some (.overflow 3) ∧ c.feeder.worker? = none := by
    decide +kernel
  have hjoined : (run Broadcast.pulse narrowStation () thirdPush).joined? 0 =
      some ⟨1, [1], 0, 0⟩ := by
    decide +kernel
  constructor
  · obtain ⟨c, hc, hp, hlt⟩ := hfirst
    obtain ⟨-, hroom⟩ := run_overflows Broadcast.pulse narrowStation () firstPush 0 c hc
    obtain ⟨-, -, -, hqueues⟩ := hroom ⟨1, [1], 0, 0⟩ 1 ⟨0, 1, 1, [8], [false]⟩ hp
    obtain ⟨q, hfeed, hq⟩ := hqueues hlt default (.upTo 1)
    exact ⟨c, q, hc, hfeed, hq⟩
  · obtain ⟨c, hc⟩ := Option.isSome_iff_exists.mp hsome
    rw [hc, Option.all_some, decide_eq_true_eq] at hthird
    obtain ⟨hdrop, -⟩ := run_overflows Broadcast.pulse narrowStation () thirdPush 0 c hc
    obtain ⟨joined, before, m, rest, hj, hdropped, -, ⟨-, hout⟩ | ⟨seat, hp, -⟩⟩ :=
      hdrop 3 hthird.1
    · cases hj.symm.trans hjoined
      exact ⟨before, m, rest, hdropped, hout⟩
    · exact absurd hthird.2 (by rw [hp]; exact nofun)

end Course
end SampleCast
