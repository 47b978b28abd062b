import SampleCast.Proofs.Broadcast.Saturation
import SampleCast.Proofs.Connection.Link

/-! A dead link is noticed.
From the moment at which the link of a connection is down, its feeder goes on for five actions at
most, whatever the producer, the senders and the other feeders do in between. `Winds` is what holds
of a connection throughout that time. Main statement: `run_notices`, that a link goes down for a
failed write and for nothing else, that the feeder then acknowledges one generation at most and
closes the connection, and that a connection is closed for its link only when a write has failed
before the feeder looked. -/

namespace SampleCast

variable {σ : Type} {source : SampleSource σ} {station : Station} {s : σ}

namespace Broadcast

def Action.feeds (i : Nat) : Action → Bool
  | .feed j _ => j = i
  | _ => false

theorem Action.feeds_of_turn? {hub : Hub} {i : Nat} {a : Action} (h : a.turn? hub i = none) :
    a.feeds i = false := by
  cases a with
  | feed j peer =>
    by_cases hj : j = i
    · rw [turn?, if_pos hj] at h
      cases h
    · exact decide_eq_false hj
  | _ => rfl

theorem feed_of_step_eq_none {b : Broadcast σ} {i : Nat} {c : Connection} {a : Action}
    (h : b.step source station a = none) (hc : b.connections[i]? = some c)
    (ha : a.feeds i = true) : ∃ peer, c.feed station b.hub peer = none := by
  cases a with
  | feed j peer =>
    cases of_decide_eq_true ha
    refine ⟨peer, ?_⟩
    cases hf : c.feed station b.hub peer with
    | none => rfl
    | some p => simp [step, onConnection, hc, hf] at h
  | _ => cases ha

end Broadcast

namespace Course

variable {r r' : Course σ} {i n : Nat} {c c' : Connection} {late : List Nat}

/-- Connection `i` was `c` with its link down, and is `c'` after its feeder has had `n` turns. It
has acknowledged the generations `late` since. -/
structure Winds (r r' : Course σ) (i : Nat) (c c' : Connection) (late : List Nat) (n : Nat) :
    Prop where
  present : r'.present.connections[i]? = some c'
  down : c'.linkUp = false
  acknowledged : r'.acknowledged i = r.acknowledged i ++ late
  allowance : late.length + c'.feeder.allowance ≤ c.feeder.allowance
  distance : c'.feeder.distance ≤ c.feeder.distance - n

theorem serving_of_linkDown (schedule : List Broadcast.Action)
    (hc : (run source station s schedule).present.connections[i]? = some c)
    (hl : c.linkUp = false) : c.sender = .exited ∧ c.feeder.IsServing := by
  obtain ⟨incoming, turns, rfl, -⟩ := exists_life source station s schedule hc
  have hexited := ((Connection.Life.link station incoming turns).down hl).1
  refine ⟨hexited, (Connection.Life.balance station incoming turns).flow.serving ?_⟩
  rw [hexited]
  exact nofun

namespace Winds

theorem refl (hc : r.present.connections[i]? = some c) (hl : c.linkUp = false) :
    Winds r r i c c [] 0 :=
  ⟨hc, hl, (List.append_nil _).symm, Nat.le_of_eq (Nat.zero_add _), Nat.le_refl _⟩

theorem passed {a : Broadcast.Action} (h : Winds r r' i c c' late n)
    (hb : r'.present.step source station a = none) :
    Winds r r' i c c' late (n + [a].countP (·.feeds i)) := by
  refine ⟨h.present, h.down, h.acknowledged, h.allowance, ?_⟩
  cases ha : a.feeds i with
  | false =>
    rw [List.countP_singleton, ha]
    exact h.distance
  | true =>
    obtain ⟨peer, hfeed⟩ := Broadcast.feed_of_step_eq_none hb h.present ha
    have hzero : c'.feeder.distance = 0 := by
      refine Nat.eq_zero_of_not_pos fun hd => ?_
      obtain ⟨p, hp⟩ := Connection.exists_feed hd station r'.present.hub peer
      cases hfeed.symm.trans hp
    rw [hzero]
    exact Nat.zero_le _

theorem spared {a : Broadcast.Action} {b : Broadcast σ} (h : Winds r r' i c c' late n)
    (ht : a.turn? r'.present.hub i = none)
    (hb : b.connections[i]? = r'.present.connections[i]?) :
    Winds r ⟨r'.past ++ [⟨r'.present, a, b⟩], b⟩ i c c' late (n + [a].countP (·.feeds i)) := by
  constructor
  case present => rw [← h.present, ← hb]
  case down => exact h.down
  case acknowledged =>
    rw [Course.acknowledged, moves_idle ht]
    exact h.acknowledged
  case allowance => exact h.allowance
  case distance =>
    rw [List.countP_singleton, Broadcast.Action.feeds_of_turn? ht]
    exact h.distance

theorem feed {a : Broadcast.Action} {b : Broadcast σ} {hub : Hub} {peer : Acceptance}
    {c'' : Connection} (h : Winds r r' i c c' late n) (hs : c'.feeder.IsServing)
    (ht : a.turn? r'.present.hub i = some (.feed hub peer)) (hb : b.connections[i]? = some c'')
    (hstep : Connection.FeederStep station hub c' b.hub c'') :
    Winds r ⟨r'.past ++ [⟨r'.present, a, b⟩], b⟩ i c c''
      (late ++ (c'.feeder.acknowledged? c''.feeder).toList) (n + [a].countP (·.feeds i)) := by
  obtain ⟨hdistance, hallowance⟩ := hstep.nears hs h.down
  have hcount : [a].countP (·.feeds i) ≤ 1 := List.countP_le_length
  constructor
  case present => exact hb
  case down => exact hstep.linkUp_eq.trans h.down
  case acknowledged =>
    rw [Course.acknowledged, moves_turn ht h.present hb, filterMap_concat, ← List.append_assoc,
      ← h.acknowledged]
    rfl
  case allowance =>
    have := h.allowance
    rw [List.length_append]
    omega
  case distance =>
    have := h.distance
    omega

end Winds

/-- Any action, whoever's it is, leaves the connection on its way. -/
theorem exists_winds_act {a : Broadcast.Action} (h : Winds r r' i c c' late n)
    (hexited : c'.sender = .exited) (hs : c'.feeder.IsServing) :
    ∃ c' late, Winds r (r'.act source station a) i c c' late (n + [a].countP (·.feeds i)) := by
  rw [act]
  cases hb : r'.present.step source station a with
  | none => exact ⟨c', late, h.passed hb⟩
  | some b =>
    rcases Broadcast.step_connection hb i with
      ⟨ht, hsame⟩ | ⟨-, hnone, -⟩ | ⟨t, d, d', ht, hd, hd', htake⟩
    · exact ⟨c', late, h.spared ht hsame⟩
    · cases h.present.symm.trans hnone
    · cases h.present.symm.trans hd
      cases t with
      | feed hub peer =>
        exact ⟨d', _, h.feed hs ht hd' (Connection.feederStep_of_feed htake)⟩
      | send hub peer =>
        exact absurd hexited (Connection.senderStep_of_send htake).not_exited

theorem exists_winds (schedule later : List Broadcast.Action)
    (hc : (run source station s schedule).present.connections[i]? = some c)
    (hl : c.linkUp = false) :
    ∃ c' late, Winds (run source station s schedule) (run source station s (schedule ++ later)) i c
      c' late (later.countP (·.feeds i)) := by
  induction later using List.reverseRecOn with
  | nil =>
    rw [List.append_nil]
    exact ⟨c, [], .refl hc hl⟩
  | append_singleton later a ih =>
    obtain ⟨c', late, h⟩ := ih
    obtain ⟨hexited, hs⟩ := serving_of_linkDown (schedule ++ later) h.present h.down
    rw [← List.append_assoc, run_concat, List.countP_append]
    exact exists_winds_act h hexited hs

theorem run_notices (source : SampleSource σ) (station : Station) (s : σ)
    (schedule later : List Broadcast.Action) (i : Nat) (c : Connection) :
    let r := run source station s schedule
    let r' := run source station s (schedule ++ later)
    r.present.connections[i]? = some c →
    (c.linkUp = false ↔ c.sender = .exited ∧ r.failures i ≠ []) ∧
    (c.linkUp = false → c.feeder.allowance ≤ 1 ∧ c.feeder.distance ≤ 5 ∧
      ∃ c' late, r'.present.connections[i]? = some c' ∧ c'.linkUp = false ∧
        r'.acknowledged i = r.acknowledged i ++ late ∧ late.length ≤ c.feeder.allowance ∧
        (c.feeder.distance ≤ later.countP (·.feeds i) → c'.feeder.reason?.isSome)) ∧
    (c.feeder.reason? = some .linkDown →
      ∃ before m rest, Connection.Notices (r.moves i) before m rest) := by
  intro r r' hc
  obtain ⟨incoming, turns, hpresent, hpast, -, -, -, hfailures⟩ :=
    exists_life source station s schedule hc
  have hlink := Connection.Life.link station incoming turns
  refine ⟨⟨?_, ?_⟩, ?_, ?_⟩
  · intro hl
    rw [← hpresent, ← hfailures]
    exact hlink.down (hpresent ▸ hl)
  · rintro ⟨hexited, hfailed⟩
    rw [← hpresent] at hexited ⊢
    exact hlink.failed hexited (hfailures ▸ hfailed)
  · intro hl
    refine ⟨c.feeder.allowance_le, c.feeder.distance_le, ?_⟩
    obtain ⟨c', late, h⟩ := exists_winds schedule later hc hl
    refine ⟨c', late, h.present, h.down, h.acknowledged,
      Nat.le_of_add_right_le h.allowance, fun hdue => ?_⟩
    have hzero : c'.feeder.distance = 0 := by
      have := h.distance
      omega
    exact FeederPhase.isSome_reason? (serving_of_linkDown _ h.present h.down).2 hzero
  · intro hr
    rw [← hpast]
    exact hlink.noticed (hpresent ▸ hr)

def deadLink : List Broadcast.Action :=
  Broadcast.firstBlock ++ List.replicate 4 (.feed 0 (.upTo 1)) ++
    List.replicate 4 (.send 0 (.upTo 0))

def secondBlock : List Broadcast.Action :=
  List.replicate 4 .produce ++ List.replicate 5 (.feed 0 (.upTo 1))

theorem run_notices_deadLink :
    let r := run Broadcast.pulse Broadcast.pulseStation () deadLink
    let r' := run Broadcast.pulse Broadcast.pulseStation () (deadLink ++ secondBlock)
    ∃ c c' late, r.present.connections[0]? = some c ∧ c.feeder = .waiting ⟨1, [1], 1, 1⟩ ∧
      r.failures 0 ≠ [] ∧ r'.present.connections[0]? = some c' ∧ c'.feeder.reason?.isSome ∧
      r'.acknowledged 0 = r.acknowledged 0 ++ late ∧ late = [2] ∧
      ∃ before m rest, Connection.Notices (r'.moves 0) before m rest := by
  intro r r'
  have hdown : r.present.connections[0]?.any fun c =>
      c.linkUp = false ∧ c.feeder = .waiting ⟨1, [1], 1, 1⟩ := by decide +kernel
  have hclosing : r'.present.connections[0]?.all fun c => c.feeder.reason? = some .linkDown := by
    decide +kernel
  have hdue : FeederPhase.distance (.waiting ⟨1, [1], 1, 1⟩) ≤
      secondBlock.countP (·.feeds 0) := by
    decide
  have hboth : r.acknowledged 0 = [1] ∧ r'.acknowledged 0 = [1, 2] := by decide +kernel
  obtain ⟨c, hc, hstate⟩ := (Option.any_eq_true ..).mp hdown
  obtain ⟨hl, hwaiting⟩ := of_decide_eq_true hstate
  obtain ⟨hfailed, hwinds, -⟩ :=
    run_notices Broadcast.pulse Broadcast.pulseStation () deadLink secondBlock 0 c hc
  obtain ⟨-, -, c', late, hc', -, hlate, -, hnoticed⟩ := hwinds hl
  have hreason : c'.feeder.reason? = some .linkDown := by
    rw [hc', Option.all_some] at hclosing
    exact of_decide_eq_true hclosing
  obtain ⟨-, -, hnotices⟩ :=
    run_notices Broadcast.pulse Broadcast.pulseStation () (deadLink ++ secondBlock) [] 0 c' hc'
  refine ⟨c, c', late, hc, hwaiting, (hfailed.mp hl).2, hc', hnoticed (hwaiting ▸ hdue), hlate, ?_,
    hnotices hreason⟩
  rw [hboth.1, hboth.2] at hlate
  exact (List.cons.inj hlate).2.symm

end Course
end SampleCast
