import SampleCast.Proofs.Broadcast.Course
import SampleCast.Proofs.Connection.Life

/-! The lives in a course.
What a server does with one connection is a life of that connection: the turns are the actions of
its workers, each with the hub as the server has it then. So every law of lives holds of each
connection of each course. Main statement: `exists_life`, that every connection of a course has
lived a life, and that what the course has recorded of it is what the life has. -/

namespace SampleCast

variable {σ : Type} {source : SampleSource σ} {station : Station} {s : σ} {b b' : Broadcast σ}
  {a : Broadcast.Action} {i : Nat}

namespace Broadcast

def Action.turn? (hub : Hub) (i : Nat) : Action → Option Connection.Turn
  | .feed j peer => if j = i then some (.feed hub peer) else none
  | .send j peer => if j = i then some (.send hub peer) else none
  | _ => none

theorem onConnection_cases {j : Nat} {act : Connection → Option (Hub × Connection)}
    (h : b.onConnection j act = some b') (i : Nat) :
    (j ≠ i ∧ b'.connections[i]? = b.connections[i]?) ∨
    (j = i ∧ ∃ c c', b.connections[i]? = some c ∧ b'.connections[i]? = some c' ∧
      act c = some (b'.hub, c')) := by
  obtain ⟨c, hub, c', hc, ha, rfl⟩ := onConnection_eq_some h
  rcases getElem?_set_cases hc c' i with hother | ⟨rfl, hi⟩
  · exact .inl hother
  · exact .inr ⟨rfl, c, c', hc, hi, ha⟩

/-- An action leaves connection `i` alone, takes it, or is a turn of one of its workers. -/
theorem step_connection (h : b.step source station a = some b') (i : Nat) :
    (a.turn? b.hub i = none ∧ b'.connections[i]? = b.connections[i]?) ∨
    (a.turn? b.hub i = none ∧ b.connections[i]? = none ∧
      ∃ incoming, b'.connections[i]? = some (.accept station incoming)) ∨
    ∃ t c c', a.turn? b.hub i = some t ∧ b.connections[i]? = some c ∧
      b'.connections[i]? = some c' ∧ t.take station c = some (b'.hub, c') := by
  cases a with
  | produce =>
    obtain ⟨hub, p, -, rfl⟩ := step_produce_eq_some h
    exact .inl ⟨rfl, rfl⟩
  | look =>
    obtain ⟨a, -, rfl⟩ := step_look_eq_some h
    exact .inl ⟨rfl, rfl⟩
  | arrive incoming =>
    cases step_arrive_eq_some h
    rcases getElem?_concat_cases b.connections (.accept station incoming) i with hi | ⟨hn, hi⟩
    · exact .inl ⟨rfl, hi⟩
    · exact .inr (.inl ⟨rfl, hn, incoming, hi⟩)
  | stop =>
    cases h
    exact .inl ⟨rfl, rfl⟩
  | feed j peer =>
    rcases onConnection_cases h i with ⟨hj, hsame⟩ | ⟨rfl, c, c', hc, hc', ha⟩
    · exact .inl ⟨if_neg hj, hsame⟩
    · exact .inr (.inr ⟨_, c, c', if_pos rfl, hc, hc', ha⟩)
  | send j peer =>
    rcases onConnection_cases h i with ⟨hj, hsame⟩ | ⟨rfl, c, c', hc, hc', ha⟩
    · exact .inl ⟨if_neg hj, hsame⟩
    · exact .inr (.inr ⟨_, c, c', if_pos rfl, hc, hc', ha⟩)

end Broadcast

namespace Moment

def move? (i : Nat) (m : Moment σ) : Option Connection.Move := do
  let turn ← m.action.turn? m.before.hub i
  let before ← m.before.connections[i]?
  let after ← m.after.connections[i]?
  some ⟨before, turn, after⟩

variable {m : Moment σ}

theorem read_eq_bind_move? {β : Type} {read : FeederPhase → FeederPhase → Option β}
    (hread : ∀ p, read p p = none)
    (hm : m.before.step source station m.action = some m.after) (i : Nat) :
    ((m.before.feeder? i).bind fun p => (m.after.feeder? i).bind fun q => read p q) =
      (m.move? i).bind fun v => read v.before.feeder v.after.feeder := by
  rcases Broadcast.step_connection hm i with
    ⟨ht, hsame⟩ | ⟨ht, hnone, incoming, hnew⟩ | ⟨t, c, c', ht, hc, hc', htake⟩
  · have hfeeder : m.after.feeder? i = m.before.feeder? i := by
      rw [Broadcast.feeder?, Broadcast.feeder?, hsame]
    rw [hfeeder]
    cases hp : m.before.feeder? i <;> simp [move?, ht, hread]
  · simp [move?, ht, Broadcast.feeder?, hnone]
  · simp [move?, ht, Broadcast.feeder?, hc, hc']

theorem joined?_eq (hm : m.before.step source station m.action = some m.after) (i : Nat) :
    m.joined? i = (m.move? i).bind Connection.Move.joined? :=
  read_eq_bind_move? FeederPhase.joined?_self hm i

theorem queued?_eq (hm : m.before.step source station m.action = some m.after) (i : Nat) :
    m.queued? i = (m.move? i).bind Connection.Move.queued? :=
  read_eq_bind_move? FeederPhase.queued?_self hm i

end Moment

namespace Course

def moves (r : Course σ) (i : Nat) : List Connection.Move := r.past.filterMap (Moment.move? i)

def life? (r : Course σ) (i : Nat) : Option Connection.Life :=
  (r.present.connections[i]?).map fun c => ⟨r.moves i, c⟩

def left? (r : Course σ) (i : Nat) : Option WorkerId :=
  ((r.moves i).filterMap Connection.Move.left?).head?

def failures (r : Course σ) (i : Nat) : List Fault :=
  (r.moves i).filterMap Connection.Move.failed?

variable {r : Course σ}

theorem moves_concat {past : List (Moment σ)} {m : Moment σ} :
    moves ⟨past ++ [m], b⟩ i = moves ⟨past, m.before⟩ i ++ (m.move? i).toList :=
  filterMap_concat _ _ _

theorem moves_idle (ht : a.turn? r.present.hub i = none) :
    moves ⟨r.past ++ [⟨r.present, a, b⟩], b⟩ i = r.moves i := by
  have hidle : Moment.move? i ⟨r.present, a, b⟩ = none := by simp [Moment.move?, ht]
  rw [moves_concat, hidle]
  exact List.append_nil _

theorem moves_turn {t : Connection.Turn} {c c' : Connection}
    (ht : a.turn? r.present.hub i = some t) (hc : r.present.connections[i]? = some c)
    (hc' : b.connections[i]? = some c') :
    moves ⟨r.past ++ [⟨r.present, a, b⟩], b⟩ i = r.moves i ++ [⟨c, t, c'⟩] := by
  have hmove : Moment.move? i ⟨r.present, a, b⟩ = some ⟨c, t, c'⟩ := by
    simp [Moment.move?, ht, hc, hc']
  rw [moves_concat, hmove]
  rfl

/-- Connection `i` has lived a life, or has not been taken yet. -/
structure Lives (station : Station) (r : Course σ) (i : Nat) : Prop where
  absent : r.present.connections[i]? = none → r.moves i = []
  present : ∀ l, r.life? i = some l → ∃ incoming turns, l = .run station incoming turns

theorem Lives.start : Lives station { present := .start station s : Course σ } i :=
  ⟨fun _ => rfl, by simp [life?, Broadcast.start]⟩

theorem Lives.idle (h : r.Lives station i) (ht : a.turn? r.present.hub i = none)
    (hsame : b.connections[i]? = r.present.connections[i]?) :
    Lives station ⟨r.past ++ [⟨r.present, a, b⟩], b⟩ i := by
  refine ⟨?_, ?_⟩
  · rw [moves_idle ht]
    exact fun hn => h.absent (hsame ▸ hn)
  · intro l hl
    rw [life?, moves_idle ht] at hl
    refine h.present l ?_
    rw [life?, ← hsame]
    exact hl

theorem Lives.arrive {incoming : List Reading} (h : r.Lives station i)
    (ht : a.turn? r.present.hub i = none) (hnone : r.present.connections[i]? = none)
    (hnew : b.connections[i]? = some (.accept station incoming)) :
    Lives station ⟨r.past ++ [⟨r.present, a, b⟩], b⟩ i := by
  have hmoves : moves ⟨r.past ++ [⟨r.present, a, b⟩], b⟩ i = [] :=
    (moves_idle ht).trans (h.absent hnone)
  refine ⟨fun _ => hmoves, ?_⟩
  intro l hl
  rw [life?, hmoves] at hl
  change (b.connections[i]?).map _ = some l at hl
  rw [hnew] at hl
  cases hl
  exact ⟨incoming, [], rfl⟩

theorem Lives.turn {t : Connection.Turn} {c c' : Connection} {hub : Hub} (h : r.Lives station i)
    (ht : a.turn? r.present.hub i = some t) (hc : r.present.connections[i]? = some c)
    (hc' : b.connections[i]? = some c') (htake : t.take station c = some (hub, c')) :
    Lives station ⟨r.past ++ [⟨r.present, a, b⟩], b⟩ i := by
  refine ⟨fun hn => absurd (hc'.symm.trans hn) nofun, ?_⟩
  intro l hl
  rw [life?, moves_turn ht hc hc'] at hl
  change (b.connections[i]?).map _ = some l at hl
  rw [hc'] at hl
  cases hl
  have hlife : r.life? i = some ⟨r.moves i, c⟩ := by
    rw [life?, hc]
    rfl
  obtain ⟨incoming, turns, hrun⟩ := h.present _ hlife
  refine ⟨incoming, turns ++ [t], ?_⟩
  rw [Connection.Life.run_concat, ← hrun]
  exact (Connection.Life.act_of_take (l := ⟨r.moves i, c⟩) htake).symm

theorem Lives.step (h : r.Lives station i) (hb : r.present.step source station a = some b) :
    Lives station ⟨r.past ++ [⟨r.present, a, b⟩], b⟩ i := by
  rcases Broadcast.step_connection hb i with
    ⟨ht, hsame⟩ | ⟨ht, hnone, incoming, hnew⟩ | ⟨t, c, c', ht, hc, hc', htake⟩
  · exact h.idle ht hsame
  · exact h.arrive ht hnone hnew
  · exact h.turn ht hc hc' htake

theorem lives (schedule : List Broadcast.Action) (i : Nat) :
    Lives station (run source station s schedule) i :=
  act_induction (P := fun r => Lives station r i) .start (fun _ _ _ h hb => h.step hb) schedule

theorem step_of_mem_past (schedule : List Broadcast.Action) :
    ∀ m ∈ (run source station s schedule).past,
      m.before.step source station m.action = some m.after := by
  refine act_induction
    (P := fun r => ∀ m ∈ r.past, m.before.step source station m.action = some m.after)
    (by simp) ?_ schedule
  intro r a b hr hb m hm
  rcases List.mem_append.mp hm with hm | hm
  · exact hr m hm
  · rw [List.mem_singleton.mp hm]
    exact hb

/-- What a course has recorded up to one of its moments is a course. -/
theorem exists_earlier (schedule : List Broadcast.Action) {before rest : List (Moment σ)}
    {m : Moment σ} (h : (run source station s schedule).past = before ++ m :: rest) :
    ∃ earlier, run source station s earlier = ⟨before, m.before⟩ := by
  induction schedule using List.reverseRecOn generalizing rest with
  | nil => exact absurd h (by simp [run])
  | append_singleton schedule a ih =>
    rw [run_concat, act] at h
    cases hb : (run source station s schedule).present.step source station a with
    | none =>
      rw [hb] at h
      exact ih h
    | some b =>
      rw [hb] at h
      rcases rest.eq_nil_or_concat with rfl | ⟨rest, m', rfl⟩
      · obtain ⟨rfl, hm⟩ := List.append_inj' h rfl
        cases hm
        exact ⟨schedule, rfl⟩
      · rw [List.concat_eq_append, ← List.cons_append, ← List.append_assoc] at h
        exact ih (List.append_inj' h rfl).1

theorem joined?_eq_moves (schedule : List Broadcast.Action) (i : Nat) :
    let r := run source station s schedule
    r.joined? i = ((r.moves i).filterMap Connection.Move.joined?).head? := by
  intro r
  rw [moves, List.filterMap_filterMap, joined?]
  exact congrArg List.head? (List.filterMap_congr fun m hm =>
    Moment.joined?_eq (step_of_mem_past schedule m hm) i)

theorem queued_eq_moves (schedule : List Broadcast.Action) (i : Nat) :
    let r := run source station s schedule
    r.queued i = (r.moves i).filterMap Connection.Move.queued? := by
  intro r
  rw [moves, List.filterMap_filterMap, queued]
  exact List.filterMap_congr fun m hm => Moment.queued?_eq (step_of_mem_past schedule m hm) i

theorem exists_earlier_of_moves (schedule : List Broadcast.Action) {i : Nat}
    {before rest : List Connection.Move} {m : Connection.Move}
    (h : (run source station s schedule).moves i = before ++ m :: rest) :
    ∃ earlier, (run source station s earlier).moves i = before ∧
      (run source station s earlier).present.connections[i]? = some m.before := by
  obtain ⟨past, later, hpast, rfl, hlater⟩ := List.filterMap_eq_append_iff.mp h
  obtain ⟨idle, moment, others, rfl, hidle, hm, -⟩ := List.filterMap_eq_cons_iff.mp hlater
  rw [← List.append_assoc] at hpast
  obtain ⟨earlier, hrun⟩ := exists_earlier schedule hpast
  refine ⟨earlier, ?_, ?_⟩
  · rw [hrun, moves, List.filterMap_append, List.filterMap_eq_nil_iff.mpr hidle, List.append_nil]
  · rw [hrun]
    obtain ⟨turn, -, hm⟩ := Option.bind_eq_some_iff.mp hm
    obtain ⟨c, hc, hm⟩ := Option.bind_eq_some_iff.mp hm
    obtain ⟨c', -, hm⟩ := Option.bind_eq_some_iff.mp hm
    cases hm
    exact hc

/-- What is known of a connection in a course is what is known of its life. -/
theorem exists_life (source : SampleSource σ) (station : Station) (s : σ)
    (schedule : List Broadcast.Action) {i : Nat} {c : Connection}
    (hc : (run source station s schedule).present.connections[i]? = some c) :
    let r := run source station s schedule
    ∃ incoming turns, let l := Connection.Life.run station incoming turns
      l.present = c ∧ l.past = r.moves i ∧ l.joined? = r.joined? i ∧ l.left? = r.left? i ∧
        l.queued = r.queued i ∧ l.failures = r.failures i := by
  intro r
  have hl : r.life? i = some ⟨r.moves i, c⟩ := by
    rw [life?, hc]
    rfl
  obtain ⟨incoming, turns, hrun⟩ := (lives schedule i).present _ hl
  refine ⟨incoming, turns, ?_⟩
  intro l
  have hlife : l = ⟨r.moves i, c⟩ := hrun.symm
  have hjoined : r.joined? i = ((r.moves i).filterMap Connection.Move.joined?).head? :=
    joined?_eq_moves schedule i
  have hqueued : r.queued i = (r.moves i).filterMap Connection.Move.queued? :=
    queued_eq_moves schedule i
  rw [hlife, hjoined, hqueued]
  exact ⟨rfl, rfl, rfl, rfl, rfl, rfl⟩

theorem membership (schedule : List Broadcast.Action) {i : Nat} {c : Connection}
    (hc : (run source station s schedule).present.connections[i]? = some c) :
    let r := run source station s schedule
    Connection.Membership (r.joined? i) (r.left? i) c.feeder := by
  intro r
  obtain ⟨incoming, turns, hpresent, -, hjoined, hleft, -⟩ :=
    exists_life source station s schedule hc
  rw [← hpresent, ← hjoined, ← hleft]
  exact Connection.Life.membership station incoming turns

theorem exists_of_joined? (schedule : List Broadcast.Action) {i : Nat} {seat : Seat}
    (h : (run source station s schedule).joined? i = some seat) :
    ∃ c, (run source station s schedule).present.connections[i]? = some c := by
  cases hc : (run source station s schedule).present.connections[i]? with
  | some c => exact ⟨c, rfl⟩
  | none =>
    rw [joined?_eq_moves, (lives schedule i).absent hc] at h
    cases h

end Course
end SampleCast
