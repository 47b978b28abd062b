import SampleCast.Proofs.Producer.Solo
import SampleCast.Proofs.Producer.Time

/-! Runs over a script.
A run plays the deliveries of a script in their order, until it is asked to stop or a delivery
fails. `Station.ending` says where that is, by recursion on the script, and `run_ending` that every
run ends there. -/

namespace SampleCast

def Delivery.exhausted : Delivery := { result := .error (.device "script exhausted") }

def Station.failure? (station : Station) (d : Delivery) : Option ProducerError :=
  match d.result with
  | .error e => some (.source e)
  | .ok points =>
    if station.settings.pointsPerChannel < points then
      some (.overrun points station.settings.pointsPerChannel)
    else none

/-- How many calls a run over a script makes, and the error that it ends with. It is asked to stop
before its first call or with a delivery. -/
def Station.ending (station : Station) : Bool → List Delivery → Nat × Option ProducerError
  | true, _ => (0, none)
  | false, [] => (1, station.failure? .exhausted)
  | false, d :: script =>
    match station.failure? d with
    | some e => (1, some e)
    | none =>
      let (calls, e) := station.ending d.stop script
      (calls + 1, e)

section

variable {channels rate : UInt32} {station : Station} {script : List Delivery} {ask : Demand}

namespace SampleSource

theorem after_scripted (k : Nat) : (scripted channels rate).after ask script k = script.drop k := by
  induction k with
  | zero => rfl
  | succ k ih =>
    rw [after, ih, ← List.tail_drop]
    cases script.drop k <;> rfl

theorem answer_scripted (k : Nat) :
    (scripted channels rate).answer ask script k = script[k]?.getD .exhausted := by
  rw [answer, after_scripted, ← List.head?_drop]
  cases script.drop k <;> rfl

end SampleSource

namespace Tape

theorem add_exhausted (t : Tape) : t.add station .exhausted = t := by
  simp [add, Delivery.block?, Delivery.exhausted, lay, overlay_nil]

theorem answers_scripted (k : Nat) :
    let answers := (SampleSource.scripted channels rate).answers ask script k
    ofDeliveries station answers = ofDeliveries station (script.take k) ∧
      answers.countP (·.isEmpty) = (script.take k).countP (·.isEmpty) := by
  induction k with
  | zero => exact ⟨rfl, rfl⟩
  | succ k ih =>
    obtain ⟨htape, hempty⟩ := ih
    simp only [SampleSource.answers_succ, SampleSource.answer_scripted, List.take_add_one,
      ofDeliveries_concat, List.countP_append, htape, hempty]
    cases script[k]? with
    | none => exact ⟨by simp [add_exhausted], rfl⟩
    | some d => exact ⟨by simp [ofDeliveries_concat], rfl⟩

end Tape

end

namespace Producer

variable {σ : Type} {source : SampleSource σ} {station : Station} {hub hub' : Hub}
  {p p' : Producer σ} {n : Nat}

theorem refused_of_failure {d : Delivery} {e : ProducerError} (h : station.failure? d = some e) :
    d.block? station = none ∧ d.isEmpty = false := by
  unfold Station.failure? at h
  unfold Delivery.block? Delivery.isEmpty
  cases hd : d.result with
  | error e => exact ⟨rfl, rfl⟩
  | ok points =>
    simp only [hd] at h
    split_ifs at h with hlt
    have hpos : points ≠ 0 := fun h0 => UInt32.not_lt_zero (h0 ▸ hlt)
    exact ⟨by simp [hlt], by simp [hpos]⟩

theorem judge_of_failure {d : Delivery} {e : ProducerError} (h : station.failure? d = some e) :
    judge station d.result = .failing e := by
  unfold Station.failure? at h
  unfold judge
  cases hd : d.result with
  | error e => simp_all
  | ok points =>
    simp only [hd] at h ⊢
    split_ifs at h with hlt
    simp_all

theorem judge_of_no_failure {d : Delivery} (h : station.failure? d = none) :
    judge station d.result = .awaiting ∨ ∃ points, judge station d.result = .publishing points := by
  unfold Station.failure? at h
  unfold judge
  cases hd : d.result with
  | error e => simp [hd] at h
  | ok points =>
    simp only [hd] at h ⊢
    split_ifs at h with hlt
    by_cases h0 : points = 0
    · exact .inl (by simp [h0])
    · exact .inr ⟨points, by simp [hlt, h0]⟩

theorem run_succ (h : p.step source station hub = some (hub', p')) :
    run source station (n + 1) hub p =
      ⟨(p.call? station hub).toList ++ (run source station n hub' p').calls,
        (run source station n hub' p').hub, (run source station n hub' p').producer⟩ := by
  simp only [run, h]

theorem run_ended {r : Except ProducerError ProducerStats} (h : p.phase = .ended r) :
    run source station n hub p = ⟨[], hub, p⟩ := by
  cases n with
  | zero => rfl
  | succ n => simp only [run, step, h]

theorem run_halt (hp : p.phase = .awaiting) (hb : hub.barrier.stopped = true) :
    run source station (n + 1) hub p = ⟨[], hub, { p with phase := .ended (.ok p.stats) }⟩ := by
  have hstep : p.step source station hub =
      some (hub, { p with phase := .ended (.ok p.stats) }) := by
    simp [step, hp, Barrier.readiness, hb]
  rw [run_succ hstep, run_ended rfl]
  simp only [call?, hp, Option.toList_none, List.nil_append]

theorem run_turn (hp : p.phase = .awaiting) (hm : hub.barrier.members = [])
    (hb : hub.barrier.stopped = false) {d : Delivery} {s : σ}
    (hd : source.acquire p.source (p.demand station) = (d, s)) :
    let r := run source station n (if d.stop then hub.stop else hub) (p.receive station d s)
    ∃ call, run source station (n + 2) hub p = ⟨call :: r.calls, r.hub, r.producer⟩ := by
  have hready : p.step source station hub = some (hub, { p with phase := .acquiring }) := by
    simp [step, hp, Barrier.readiness, hb, Barrier.isReady, hm]
  have hcall : step source station hub { p with phase := .acquiring } =
      some (if d.stop then hub.stop else hub, p.receive station d s) := by
    change some (if (source.acquire p.source (p.demand station)).1.stop then hub.stop else hub,
      p.receive station (source.acquire p.source (p.demand station)).1
        (source.acquire p.source (p.demand station)).2) = _
    rw [hd]
  rw [run_succ hready, run_succ hcall]
  simp only [call?, hp, Option.toList_none, List.nil_append, Option.toList_some,
    List.singleton_append]
  exact ⟨_, rfl⟩

theorem run_fail {e : ProducerError} (hp : p.phase = .failing e) :
    run source station (n + 1) hub p = ⟨[], hub.stop, { p with phase := .ended (.error e) }⟩ := by
  have hstep : p.step source station hub =
      some (hub.stop, { p with phase := .ended (.error e) }) := by
    simp only [step, hp]
  rw [run_succ hstep, run_ended rfl]
  simp only [call?, hp, Option.toList_none, List.nil_append]

theorem run_publish {points : UInt32} (hp : p.phase = .publishing points) :
    let frame := p.block station points
    run source station (n + 2) hub p =
      run source station n
        ((hub.publish (hub.barrier.generation + 1) frame).advance.record .published)
        { p with stats := countBlock p.stats points frame.timestamp, phase := .awaiting } := by
  intro frame
  have hpublish : p.step source station hub =
      some (hub.publish (hub.barrier.generation + 1) frame,
        { p with phase := .opening points frame.timestamp }) := by
    simp only [step, hp, frame]
  rw [run_succ hpublish, run_succ rfl]
  simp only [call?, hp, Option.toList_none, List.nil_append]

theorem run_turn_fail (hp : p.phase = .awaiting) (hm : hub.barrier.members = [])
    (hb : hub.barrier.stopped = false) {d : Delivery} {s : σ}
    (hd : source.acquire p.source (p.demand station) = (d, s)) {e : ProducerError}
    (he : station.failure? d = some e) :
    let r := run source station (n + 3) hub p
    r.calls.length = 1 ∧ r.producer.phase = .ended (.error e) := by
  obtain ⟨call, hturn⟩ := run_turn (n := n + 1) hp hm hb hd
  have hphase : (p.receive station d s).phase = .failing e := judge_of_failure he
  rw [hturn, run_fail hphase]
  exact ⟨rfl, rfl⟩

theorem run_turn_pass (hp : p.phase = .awaiting) (hm : hub.barrier.members = [])
    (hb : hub.barrier.stopped = false) {d : Delivery} {s : σ}
    (hd : source.acquire p.source (p.demand station) = (d, s)) (he : station.failure? d = none) :
    ∃ call m hub' p', n ≤ m ∧ p'.phase = .awaiting ∧ p'.source = s ∧
      hub'.barrier.members = [] ∧ hub'.barrier.stopped = d.stop ∧
      run source station (n + 4) hub p = ⟨call :: (run source station m hub' p').calls,
        (run source station m hub' p').hub, (run source station m hub' p').producer⟩ := by
  obtain ⟨call, hturn⟩ := run_turn (n := n + 2) hp hm hb hd
  have hstop : (if d.stop then hub.stop else hub).barrier.stopped = d.stop := by
    cases d.stop with
    | true => rfl
    | false => exact hb
  have hmembers : (if d.stop then hub.stop else hub).barrier.members = [] := by
    split_ifs <;> exact hm
  rcases judge_of_no_failure he with hj | ⟨points, hj⟩
  · exact ⟨call, n + 2, _, p.receive station d s, Nat.le_add_right n 2, hj, rfl, hmembers, hstop,
      hturn⟩
  · have hphase : (p.receive station d s).phase = .publishing points := hj
    rw [run_publish hphase] at hturn
    refine ⟨call, n, _, _, Nat.le_refl n, rfl, rfl, ?_, ?_, hturn⟩
    · exact congrArg (List.map _) hmembers
    · exact hstop

/-- Every run over a script comes to the ending of the script. Each delivery takes at most four
actions, which is what the induction on the script counts. -/
theorem run_ending {channels rate : UInt32} {script : List Delivery}
    {p : Producer (List Delivery)} (hp : p.phase = .awaiting) (hs : p.source = script)
    (hm : hub.barrier.members = []) (hn : 4 * script.length + 4 ≤ n) :
    let r := run (.scripted channels rate) station n hub p
    r.calls.length = (station.ending hub.barrier.stopped script).1 ∧
      r.producer.phase = .ended
        ((station.ending hub.barrier.stopped script).2.elim (.ok r.producer.stats) .error) := by
  induction script generalizing n hub p with
  | nil =>
    obtain ⟨m, rfl⟩ : ∃ m, n = m + 3 := ⟨n - 3, by omega⟩
    cases hb : hub.barrier.stopped with
    | true =>
      rw [run_halt hp hb]
      exact ⟨rfl, rfl⟩
    | false =>
      have hd : (SampleSource.scripted channels rate).acquire p.source (p.demand station) =
          (.exhausted, []) := by
        rw [hs]
        rfl
      exact run_turn_fail hp hm hb hd rfl
  | cons d script ih =>
    rw [List.length_cons] at hn
    obtain ⟨m, rfl⟩ : ∃ m, n = m + 4 := ⟨n - 4, by omega⟩
    cases hb : hub.barrier.stopped with
    | true =>
      rw [run_halt hp hb]
      exact ⟨rfl, rfl⟩
    | false =>
      have hd : (SampleSource.scripted channels rate).acquire p.source (p.demand station) =
          (d, script) := by
        rw [hs]
        rfl
      cases he : station.failure? d with
      | some e =>
        simp only [Station.ending, he]
        exact run_turn_fail hp hm hb hd he
      | none =>
        obtain ⟨call, k, hub', p', hk, hp', hs', hm', hstop, hturn⟩ :=
          run_turn_pass (n := m) hp hm hb hd he
        obtain ⟨hcalls, hend⟩ := ih hp' hs' hm' (by omega : 4 * script.length + 4 ≤ k)
        rw [hstop] at hcalls hend
        simp only [Station.ending, he, hturn]
        exact ⟨congrArg (· + 1) hcalls, hend⟩

theorem isSettled_of_call_or_end (h : p.phase = .acquiring ∨ p.result?.isSome = true) :
    p.phase.IsSettled := by
  cases hp : p.phase <;> simp_all [ProducerPhase.IsSettled, result?]

theorem run_settled (channels rate : UInt32) (station : Station) (stopped : Bool)
    (script : List Delivery) (n : Nat) :
    let r := run (.scripted channels rate) station n { barrier := { stopped } }
      (start station script)
    let past := script.take r.calls.length
    let tape := Tape.ofDeliveries station past
    r.producer.phase = .acquiring ∨ r.producer.result?.isSome = true →
      r.producer.source = script.drop r.calls.length ∧
      r.hub = tape.hub r.producer.result?.isSome ∧
      r.producer.stats = tape.stats (past.countP (·.isEmpty)) := by
  intro r past tape hphase
  obtain ⟨published, hsolo⟩ : ∃ published,
      Solo (.scripted channels rate) station script r.calls.length published r.hub r.producer := by
    simpa only [Nat.zero_add] using (Solo.start stopped).run n
  obtain ⟨htape, hempty⟩ :=
    @Tape.answers_scripted channels rate station script station.demand r.calls.length
  obtain ⟨hhub, hstats⟩ := hsolo.settled (isSettled_of_call_or_end hphase)
  rw [htape] at hhub hstats
  rw [hempty] at hstats
  have hstopped : r.hub.barrier.stopped = r.producer.result?.isSome := by
    rcases hphase with hp | hend
    · rw [hsolo.acquiring hp, result?, hp]
      rfl
    · rw [hend]
      exact hsolo.ended hend
  exact ⟨hsolo.state.trans (SampleSource.after_scripted _), hstopped ▸ hhub, hstats⟩

/-- A run over a script is the fold of its tape over the deliveries. It ends where the script says,
and whenever the source is called and at the end the barrier, the slot, the counters and the
statistics are those of the deliveries so far. A delivery without a block changes nothing but the
number of empty reads, and the latest block has the samples of its own delivery, as many as fill
it. With fewer than 2^64 points the stamps come out so in words. -/
theorem runScript_eq_fold (settings : ServerSettings) (channels rate : UInt32) (stopped : Bool)
    (script : List Delivery) :
    let source := SampleSource.scripted channels rate
    let station := stationOf settings source
    let hub : Hub := { barrier := { stopped } }
    let whole := runScript settings channels rate hub script
    (whole.calls.length = (station.ending stopped script).1 ∧
      whole.producer.phase =
        .ended ((station.ending stopped script).2.elim (.ok whole.producer.stats) .error)) ∧
    (∀ n,
      let r := run source station n hub (start station script)
      let past := script.take r.calls.length
      let tape := Tape.ofDeliveries station past
      r.producer.phase = .acquiring ∨ r.producer.result?.isSome = true →
        r.producer.source = script.drop r.calls.length ∧
        r.hub = tape.hub r.producer.result?.isSome ∧
        r.producer.stats = tape.stats (past.countP (·.isEmpty))) ∧
    (∀ d e, station.failure? d = some e → d.block? station = none ∧ d.isEmpty = false) ∧
    ∀ past,
      let tape := Tape.ofDeliveries station past
      tape.frames.length = (past.filterMap (·.block? station)).length ∧
      (tape.points < UInt64.size →
        stampEach? rate 0 (tape.frames.map (·.pointsPerChannel)) =
          some (tape.frames.map (·.timestamp))) ∧
      (∀ d, d.block? station = none → ∀ emptyReads,
        (Tape.ofDeliveries station (past ++ [d])).hub = tape.hub ∧
        (Tape.ofDeliveries station (past ++ [d])).stats emptyReads = tape.stats emptyReads) ∧
      ∀ before d points after, past = before ++ d :: after → d.block? station = some points →
        (∀ e ∈ after, e.block? station = none) →
        let area := channels.toNat * points.toNat
        tape.latest = ((Tape.ofDeliveries station before).lay d).cut station points ∧
        tape.latest.timestamp = timestampAt rate
          ((before.filterMap (·.block? station)).map (·.toNat)).sum ∧
        tape.latest.channelCount = channels ∧ tape.latest.pointsPerChannel = points ∧
        tape.latest.analog.length = area ∧ tape.latest.digital.length = area ∧
        (area ≤ d.analog.length → tape.latest.analog = d.analog.take area) ∧
        (area ≤ d.digital.length → tape.latest.digital = d.digital.take area) := by
  intro source station hub whole
  refine ⟨?_, ?_, fun d e => refused_of_failure, ?_⟩
  · refine run_ending rfl rfl rfl ?_
    rw [actionsFor]
    omega
  · exact run_settled channels rate station stopped script
  · intro past tape
    refine ⟨Tape.length_frames past, ?_, ?_, ?_⟩
    · intro hwords
      obtain ⟨hpoints, hstamps⟩ := @Tape.stamps_frames past station
      rw [hstamps]
      refine @stampEach?_eq rate _ 0 ?_
      rw [UInt64.toNat_zero, Nat.zero_add, ← hpoints]
      exact hwords
    · intro d hd emptyReads
      have hadd : Tape.ofDeliveries station (past ++ [d]) = tape.lay d := by
        rw [Tape.ofDeliveries_concat, Tape.add, hd]
      rw [hadd]
      exact ⟨rfl, rfl⟩
    · intro before d points after hpast hd hafter area
      have hlatest : tape.latest =
          ((Tape.ofDeliveries station before).lay d).cut station points := by
        simp only [tape, hpast]
        exact Tape.latest_ofDeliveries hd hafter
      obtain ⟨hshape, hanalog, hdigital⟩ := @Tape.cut_lay station before d points hd
      rw [hlatest]
      refine ⟨rfl, ?_, rfl, rfl, hshape.1, hshape.2, hanalog, hdigital⟩
      exact congrArg (timestampAt rate) (Tape.points_ofDeliveries before)

def uneven : List Delivery :=
  [{ result := .ok 3, analog := [1, 2, 3], digital := [true, false, true] }, { result := .ok 0 },
    { result := .ok 2, analog := [4, 5], digital := [false, true] }, { result := .ok 4 }]

theorem runScript_eq_fold_uneven :
    let settings : ServerSettings := { pointsPerChannel := 3 }
    let tape := Tape.ofDeliveries ⟨settings, 1, 1000⟩ uneven
    let whole := runScript settings 1 1000 {} uneven
    whole.calls.length = 4 ∧ whole.producer.phase = .ended (.error (.overrun 4 3)) ∧
    whole.hub = tape.hub true ∧ whole.producer.stats = tape.stats 1 ∧ tape.frames.length = 2 ∧
    tape.latest.timestamp = timestampAt 1000 3 ∧ tape.latest.analog = [4, 5] := by
  intro settings tape whole
  obtain ⟨⟨hcalls, hend⟩, hmoment, -, hfold⟩ := runScript_eq_fold settings 1 1000 false uneven
  have hcalls : whole.calls.length = 4 := hcalls
  have hend : whole.producer.phase = .ended (.error (.overrun 4 3)) := hend
  have hresult : whole.producer.result?.isSome = true := by
    rw [result?, hend]
    rfl
  obtain ⟨-, hhub, hstats⟩ := hmoment (actionsFor (uneven.length + 1)) (.inr hresult)
  change whole.hub = (Tape.ofDeliveries _ (uneven.take whole.calls.length)).hub
    whole.producer.result?.isSome at hhub
  change whole.producer.stats = (Tape.ofDeliveries _ (uneven.take whole.calls.length)).stats
    ((uneven.take whole.calls.length).countP (·.isEmpty)) at hstats
  rw [hcalls, hresult] at hhub
  rw [hcalls] at hstats
  obtain ⟨hcount, -, -, hlatest⟩ := hfold uneven
  obtain ⟨-, htime, -, -, -, -, hanalog, -⟩ := hlatest (uneven.take 2)
    { result := .ok 2, analog := [4, 5], digital := [false, true] } 2 (uneven.drop 3) rfl rfl
    (by decide)
  exact ⟨hcalls, hend, hhub, hstats, hcount, htime, hanalog (by decide)⟩

end Producer
end SampleCast
