import SampleCast.Proofs.Connection.Saturation

/-! The link of a connection.
The sender takes the link down when a write has failed, and exits. The feeder looks at the link
before it waits for a generation and nowhere else, so that the link may go down while the feeder
waits, copies, queues or acknowledges. Main statements: `FeederStep.nears`, that from then on every
action brings the feeder nearer to its look at the link, with one acknowledgment on the way at most,
and `Life.link`, that throughout every life the link is down if and only if a write has failed and
the sender has exited, and that nobody finds it down before. -/

namespace SampleCast

namespace FeederPhase

/-- How many generations a feeder may acknowledge before it looks at the link. -/
def allowance : FeederPhase → Nat
  | .waiting _ | .copying .. | .queueing .. | .acknowledging .. => 1
  | _ => 0

/-- How many actions a feeder makes at most until it has looked at the link. -/
def distance : FeederPhase → Nat
  | .checking _ => 1
  | .acknowledging .. => 2
  | .queueing .. => 3
  | .copying .. => 4
  | .waiting _ => 5
  | _ => 0

theorem allowance_le (p : FeederPhase) : p.allowance ≤ 1 := by
  unfold allowance
  split <;> decide

theorem distance_le (p : FeederPhase) : p.distance ≤ 5 := by
  unfold distance
  split <;> decide

theorem isSome_reason? {p : FeederPhase} (hs : p.IsServing) (hd : p.distance = 0) :
    p.reason?.isSome := by
  unfold IsServing at hs
  split at hs
  · cases hd
  · cases hd
  · cases hd
  · cases hd
  · cases hd
  · rfl
  · rfl
  · rfl
  · exact hs.elim

end FeederPhase

namespace Connection

variable {station : Station} {hub hub' : Hub} {c c' : Connection} {peer : Acceptance}

/-- Move `m` is a look at the link that finds it down, and a write has failed before. -/
structure Notices (moves before : List Move) (m : Move) (rest : List Move) : Prop where
  moves : moves = before ++ m :: rest
  look : ∃ seat, m.before.feeder = .checking seat ∧
    m.after.feeder = .closing seat .linkDown .leaving
  down : m.before.linkUp = false
  failed : before.filterMap Move.failed? ≠ []

theorem Notices.concat {moves before rest : List Move} {m : Move}
    (h : Notices moves before m rest) (m' : Move) :
    Notices (moves ++ [m']) before m (rest ++ [m']) := by
  refine ⟨?_, h.look, h.down, h.failed⟩
  rw [h.moves, List.append_assoc, List.cons_append]

theorem exists_feed (hd : 0 < c.feeder.distance) (station : Station) (hub : Hub)
    (peer : Acceptance) : ∃ p, c.feed station hub peer = some p := by
  cases hc : c.feeder with
  | checking | waiting | copying => exact ⟨_, by simp only [feed, hc]; rfl⟩
  | queueing seat g frame =>
    rcases hq : c.queue.push frame with ⟨_ | _, q⟩ <;> exact ⟨_, by simp only [feed, hc, hq]; rfl⟩
  | acknowledging seat g =>
    rcases ha : hub.barrier.acknowledge seat.worker g with ⟨_ | _, barrier⟩ <;>
      exact ⟨_, by simp only [feed, hc, ha]; rfl⟩
  | _ =>
    rw [hc] at hd
    exact absurd hd (Nat.lt_irrefl 0)

namespace FeederStep

theorem linkUp_eq (h : FeederStep station hub c hub' c') : c'.linkUp = c.linkUp := by
  cases h <;> rfl

/-- With the link down, an action of the feeder brings it nearer to its look at the link. What it
acknowledges by the action it may not acknowledge again. -/
theorem nears (h : FeederStep station hub c hub' c') (hs : c.feeder.IsServing)
    (hl : c.linkUp = false) :
    c'.feeder.distance ≤ c.feeder.distance - 1 ∧
      (c.feeder.acknowledged? c'.feeder).toList.length + c'.feeder.allowance ≤
        c.feeder.allowance := by
  cases h with
  | linkUp hc hu => exact absurd (hl.symm.trans hu) nofun
  | linkDown hc _ | advanced hc _ | timedOut hc _ | stopped hc _ | copy hc _ | stale hc _
  | queue hc _ | overflow hc _ | acknowledge hc _ | violate hc _ | leave hc | record hc
  | closeQueue hc | hangUp hc | joined hc _ | drain hc | finish hc =>
    rw [hc]
    simp [FeederPhase.distance, FeederPhase.allowance, FeederPhase.acknowledged?]
  | _ hc =>
    rw [hc] at hs
    exact hs.elim

theorem linkDown_cases (h : FeederStep station hub c hub' c')
    (hr : c'.feeder.reason? = some .linkDown) :
    c.feeder.reason? = some .linkDown ∨
    ∃ seat, c.feeder = .checking seat ∧ c.linkUp = false ∧
      c'.feeder = .closing seat .linkDown .leaving := by
  cases h with
  | linkDown hc hl => exact .inr ⟨_, hc, hl, rfl⟩
  | read hc hp =>
    rcases consider_cases station _ with ⟨e, he⟩ | ⟨channels, he⟩ <;> rw [he] at hr <;> cases hr
  | finish hc =>
    rw [FeederPhase.reason?_over] at hr
    rw [hc]
    exact .inl hr
  | leave hc | record hc | closeQueue hc | hangUp hc | joined hc _ | drain hc =>
    rw [hc]
    exact .inl hr
  | _ => cases hr

end FeederStep

namespace SenderStep

theorem linkUp_cases (h : SenderStep hub c hub' c') :
    (c.sender ≠ .unlinking ∧ c'.linkUp = c.linkUp) ∨
      (c.sender = .unlinking ∧ c'.sender = .exited ∧ c'.linkUp = false) := by
  cases h with
  | unlink hc => exact .inr ⟨hc, rfl, rfl⟩
  | _ hc => exact .inl ⟨by rw [hc]; exact nofun, rfl⟩

theorem not_exited (h : SenderStep hub c hub' c') : c.sender ≠ .exited := by
  cases h with
  | _ hc =>
    rw [hc]
    exact nofun

theorem exited_cases (h : SenderStep hub c hub' c') (he : c'.sender = .exited) :
    c.sender = .popping ∨ c.sender = .polling ∨ c.sender = .unlinking := by
  cases h with
  | closed hc _ => exact .inl hc
  | stop hc _ => exact .inr (.inl hc)
  | unlink hc => exact .inr (.inr hc)
  | _ => cases he

end SenderStep

namespace Life

structure Link (l : Life) : Prop where
  down : l.present.linkUp = false → l.present.sender = .exited ∧ l.failures ≠ []
  failed : l.present.sender = .exited → l.failures ≠ [] → l.present.linkUp = false
  noticed : l.present.feeder.reason? = some .linkDown →
    ∃ before m rest, Notices l.past before m rest

namespace Link

variable {l : Life} {c : Connection}

theorem start (station : Station) (incoming : List Reading) :
    Link { present := .accept station incoming } :=
  ⟨nofun, nofun, nofun⟩

theorem feed (h : l.Link) (hb : l.Balance station) (hs : FeederStep station hub l.present hub' c) :
    (l.grow (.feed hub peer) c).Link := by
  have hfailures : (l.grow (.feed hub peer) c).failures = l.failures := by
    rw [failures_grow, hs.failed?, Option.toList_none, List.append_nil]
  have hsender : c.sender = .exited ↔ l.present.sender = .exited := by
    rcases hs.sender hb.flow with he | ⟨ha, hp⟩
    · rw [he]
    · rw [ha, hp]
      exact iff_of_false nofun nofun
  constructor
  case down =>
    rw [present_grow, hs.linkUp_eq, hsender, hfailures]
    exact h.down
  case failed =>
    rw [present_grow, hs.linkUp_eq, hsender, hfailures]
    exact h.failed
  case noticed =>
    intro hr
    rcases hs.linkDown_cases hr with hr | ⟨seat, hc, hl, hc'⟩
    · obtain ⟨before, m, rest, hn⟩ := h.noticed hr
      exact ⟨before, m, _, hn.concat _⟩
    · exact ⟨l.past, _, [], rfl, ⟨seat, hc, hc'⟩, hl, (h.down hl).2⟩

theorem send (h : l.Link) (hb : l.Balance station) (hs : SenderStep hub l.present hub' c) :
    (l.grow (.send hub peer) c).Link := by
  obtain ⟨done, held, items, hparts⟩ := hb.parts
  have hkeeps := hparts.keeps
  constructor
  case down =>
    intro hl
    rw [present_grow] at hl ⊢
    rcases hs.linkUp_cases with ⟨-, he⟩ | ⟨hc, hexited, -⟩
    · exact absurd (h.down (he.symm.trans hl)).1 hs.not_exited
    · rw [hc] at hkeeps
      refine ⟨hexited, ?_⟩
      rw [failures_grow]
      exact List.append_ne_nil_of_left_ne_nil (List.ne_nil_of_length_eq_add_one hkeeps.1) _
  case failed =>
    intro he hn
    rw [present_grow] at he ⊢
    rw [failures_grow, he] at hn
    -- A sender that exits with nothing to send has had no failure.
    rcases hs.exited_cases he with hc | hc | hc
    · rw [hc] at hkeeps hn
      exact absurd (by rw [hkeeps.1]; rfl) hn
    · rw [hc] at hkeeps hn
      exact absurd (by rw [hkeeps.1]; rfl) hn
    · rcases hs.linkUp_cases with ⟨hne, -⟩ | ⟨-, -, hl⟩
      · exact absurd hc hne
      · exact hl
  case noticed =>
    intro hr
    rw [present_grow, hs.feeder] at hr
    obtain ⟨before, m, rest, hn⟩ := h.noticed hr
    exact ⟨before, m, _, hn.concat _⟩

end Link

theorem link (station : Station) (incoming : List Reading) (turns : List Turn) :
    (run station incoming turns).Link := by
  refine (run_induction (P := fun l => l.Balance station ∧ l.Link)
    ⟨.start station incoming, .start station incoming⟩ ?_ ?_ turns).2
  · intro l hub peer hub' c ⟨hb, h⟩ hs
    exact ⟨hb.feed hs, h.feed hb hs⟩
  · intro l hub peer hub' c ⟨hb, h⟩ hs
    exact ⟨hb.send hs, h.send hb hs⟩

end Life
end Connection
end SampleCast
