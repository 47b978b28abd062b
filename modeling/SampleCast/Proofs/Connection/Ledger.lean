import SampleCast.Proofs.Connection.Place
import SampleCast.Proofs.Wire.Request

/-! The ledger of a connection.
Next to a connection stands what is known of its past: the seat that it took when it joined, and the
generations and frames that it has queued. `Ledger` ties the two. From the one after the generation
in which it joined, the connection has queued every generation up to the one it has reached, each
once and in order, and of each the channels that were asked for. Main statement: every action of the
feeder keeps the ledger. -/

namespace SampleCast

namespace FeederPhase

def IsUnjoined : FeederPhase → Prop
  | .reading | .refusing _ | .joining _ => True
  | _ => False

/-- The seat of a feeder that may still queue blocks, with the last generation that it queued, or in
which it joined. -/
def reached? : FeederPhase → Option (Seat × Nat)
  | .replying seat _ | .abandoning seat _ | .checking seat | .waiting seat | .copying seat _
  | .queueing seat _ _ => some (seat, seat.lastSeen)
  | .acknowledging seat g => some (seat, g)
  | _ => none

end FeederPhase

def IsSelection (blocks : Nat → Option Frame) (channels : List UInt32) (g : Nat) (f : Frame) :
    Prop :=
  ∃ block, blocks g = some block ∧ block.select channels = some f

/-- What a connection has queued since it took its seat. -/
structure Queued (blocks : Nat → Option Frame) (seat : Seat) (queued : List (Nat × Frame)) :
    Prop where
  narrow : seat.channels.length < UInt32.size
  consecutive : queued.map (·.1) = List.range' (seat.lastSeen + 1) queued.length
  selected : ∀ g f, (g, f) ∈ queued → IsSelection blocks seat.channels g f

structure Ledger (blocks : Nat → Option Frame) (joined : Option Seat)
    (queued : List (Nat × Frame)) (p : FeederPhase) : Prop where
  unjoined : p.IsUnjoined → joined = none
  requested : ∀ channels, p = .joining channels → channels.length < UInt32.size
  blank : joined = none → queued = []
  since : ∀ seat, joined = some seat → Queued blocks seat queued
  reached : ∀ seat n, p.reached? = some (seat, n) → ∃ j, joined = some j ∧
    j.channels = seat.channels ∧ j.lastSeen + queued.length = n
  inHand : ∀ seat g f, p = .queueing seat g f → IsSelection blocks seat.channels g f

variable {blocks blocks' : Nat → Option Frame} {joined : Option Seat}
  {queued : List (Nat × Frame)} {p q : FeederPhase} {seat : Seat} {g : Nat} {f : Frame}
  {channels : List UInt32}

theorem IsSelection.mono (h : IsSelection blocks channels g f)
    (hb : ∀ g block, blocks g = some block → blocks' g = some block) :
    IsSelection blocks' channels g f := by
  obtain ⟨block, hg, hs⟩ := h
  exact ⟨block, hb g block hg, hs⟩

theorem Queued.concat (h : Queued blocks seat queued) (hg : g = seat.lastSeen + queued.length + 1)
    (hf : IsSelection blocks seat.channels g f) : Queued blocks seat (queued ++ [(g, f)]) := by
  refine ⟨h.narrow, ?_, ?_⟩
  · rw [List.map_append, h.consecutive, List.length_append, List.length_singleton,
      List.range'_1_concat, hg, Nat.add_right_comm]
    rfl
  · intro g' f' hmem
    rcases List.mem_append.mp hmem with hmem | hmem
    · exact h.selected g' f' hmem
    · cases List.mem_singleton.mp hmem
      exact hf

namespace Ledger

theorem reading : Ledger blocks none [] .reading :=
  ⟨fun _ => rfl, nofun, fun _ => rfl, nofun, nofun, nofun⟩

theorem mono (h : Ledger blocks joined queued p)
    (hb : ∀ g block, blocks g = some block → blocks' g = some block) :
    Ledger blocks' joined queued p := by
  refine ⟨h.unjoined, h.requested, h.blank, ?_, h.reached, ?_⟩
  · intro seat hs
    obtain ⟨hn, hc, hsel⟩ := h.since seat hs
    exact ⟨hn, hc, fun g f hmem => (hsel g f hmem).mono hb⟩
  · intro seat g f hp
    exact (h.inHand seat g f hp).mono hb

theorem keep (h : Ledger blocks joined queued p) (hu : q.IsUnjoined → joined = none)
    (hj : ∀ channels, q = .joining channels → channels.length < UInt32.size)
    (hr : ∀ seat n, q.reached? = some (seat, n) →
      ∃ s, p.reached? = some (s, n) ∧ s.channels = seat.channels)
    (hi : ∀ seat g f, q = .queueing seat g f → IsSelection blocks seat.channels g f) :
    Ledger blocks joined queued q := by
  refine ⟨hu, hj, h.blank, h.since, ?_, hi⟩
  intro seat n hq
  obtain ⟨s, hs, hc⟩ := hr seat n hq
  obtain ⟨j, hjs, hjc, hn⟩ := h.reached s n hs
  exact ⟨j, hjs, hjc.trans hc, hn⟩

theorem stay (h : Ledger blocks joined queued p) (hq : ¬ q.IsUnjoined)
    (hr : q.reached? = none ∨ q.reached? = p.reached?)
    (hi : ∀ seat g f, q = .queueing seat g f → IsSelection blocks seat.channels g f) :
    Ledger blocks joined queued q := by
  refine h.keep (fun hu => absurd hu hq) ?_ ?_ hi
  · intro channels he
    exact absurd (he ▸ trivial) hq
  · intro seat n hs
    rcases hr with hr | hr
    · rw [hr] at hs
      cases hs
    · exact ⟨seat, hr ▸ hs, rfl⟩

end Ledger

namespace Connection

variable {station : Station} {hub hub' : Hub} {c c' : Connection}

theorem ok_of_consider {r : Except WireError Request} (h : consider station r = .joining channels) :
    ∃ request, r = .ok request ∧ request.channels = channels ∧
      ∀ c ∈ channels, c < station.channelCount := by
  unfold consider at h
  cases r with
  | error e => cases h
  | ok request =>
    cases hv : request.validate station.channelCount with
    | error e => simp [hv] at h
    | ok u =>
      simp only [hv, FeederPhase.joining.injEq] at h
      exact ⟨request, rfl, h, h ▸ Request.validate_eq_ok hv⟩

theorem length_channels_of_consider {limit : UInt32} {s rest : List Reading}
    {r : Except WireError Request} (hr : Request.read limit s = (r, rest))
    (hc : consider station r = .joining channels) :
    0 < channels.length ∧ channels.length ≤ limit.toNat := by
  obtain ⟨request, rfl, rfl, -⟩ := ok_of_consider hc
  exact Request.length_channels_of_read hr

theorem reached?_consider {r : Except WireError Request} :
    (consider station r).reached? = none := by
  rcases consider_cases station r with ⟨e, he⟩ | ⟨channels, he⟩ <;> rw [he] <;> rfl

theorem consider_ne_queueing {r : Except WireError Request} :
    consider station r ≠ .queueing seat g f := by
  rcases consider_cases station r with ⟨e, he⟩ | ⟨channels, he⟩ <;> rw [he] <;> exact nofun

/-- Every action of a feeder keeps its ledger, provided that it copies the block of the generation
that it was told of, and that this is the one after the last that it has seen. -/
theorem FeederStep.ledger (h : FeederStep station hub c hub' c')
    (hr : Ledger blocks joined queued c.feeder)
    (hcopy : ∀ seat g f, c.feeder = .copying seat g →
      hub.slot.copy seat.channels = some (g, f) → IsSelection blocks seat.channels g f)
    (hnext : ∀ seat g f, c.feeder = .queueing seat g f → g = seat.lastSeen + 1) :
    Ledger blocks (joined.or (c.feeder.joined? c'.feeder))
      (queued ++ (c.feeder.queued? c'.feeder).toList) c'.feeder := by
  have quiet : c.feeder.joined? c'.feeder = none → c.feeder.queued? c'.feeder = none →
      Ledger blocks joined queued c'.feeder →
      Ledger blocks (joined.or (c.feeder.joined? c'.feeder))
        (queued ++ (c.feeder.queued? c'.feeder).toList) c'.feeder := by
    intro hj hq hr'
    rwa [hj, hq, Option.or_none, Option.toList_none, List.append_nil]
  cases h with
  | untimed hc =>
    rw [hc] at hr
    refine quiet (by rw [hc]; rfl) (by rw [hc]; rfl) ?_
    exact hr.keep (fun _ => hr.unjoined trivial) nofun nofun nofun
  | @read r rest hc hread =>
    rw [hc] at hr
    refine quiet (by rw [hc]; rfl) (by rw [hc]; rfl) ?_
    refine hr.keep (fun _ => hr.unjoined trivial) ?_ ?_ ?_
    · intro channels he
      obtain ⟨-, hle⟩ := length_channels_of_consider hread he
      exact Nat.lt_of_le_of_lt hle (UInt32.toNat_lt _)
    · intro seat n hs
      rw [reached?_consider] at hs
      cases hs
    · intro seat g f he
      exact (consider_ne_queueing he).elim
  | @join channels hc =>
    rw [hc] at hr ⊢
    have hjoined : joined = none := hr.unjoined trivial
    have hblank : queued = [] := hr.blank hjoined
    subst hjoined hblank
    refine ⟨False.elim, nofun, nofun, ?_, ?_, nofun⟩
    · intro seat hs
      cases hs
      exact ⟨hr.requested channels rfl, rfl, nofun⟩
    · intro seat n hs
      cases hs
      exact ⟨_, rfl, rfl, rfl⟩
  | begin hc | nextPart hc | reply hc | replyBroken hc | linkUp hc _ | advanced hc _
  | timedOut hc _ =>
    rw [hc] at hr
    exact quiet (by rw [hc]; rfl) (by rw [hc]; rfl) (hr.stay id (.inr rfl) nofun)
  | @copy seat g frame hc hs =>
    rw [hc] at hr
    refine quiet (by rw [hc]; rfl) (by rw [hc]; rfl) (hr.stay id (.inr rfl) ?_)
    intro seat' g' f' he
    cases he
    exact hcopy seat g frame hc hs
  | @queue seat g frame q hc hq =>
    have hg := hnext seat g frame hc
    rw [hc] at hr ⊢
    obtain ⟨j, hj, hch, hn⟩ := hr.reached seat seat.lastSeen rfl
    subst hj
    refine ⟨False.elim, nofun, nofun, ?_, ?_, nofun⟩
    · intro s hs
      cases hs
      refine (hr.since j rfl).concat (by rw [hn, hg]) ?_
      rw [hch]
      exact hr.inHand seat g frame rfl
    · intro s n hs
      cases hs
      refine ⟨j, rfl, hch, ?_⟩
      change j.lastSeen + (queued ++ [(g, frame)]).length = g
      rw [List.length_append, ← Nat.add_assoc, hn, hg]
      rfl
  | @acknowledge seat g barrier hc hok =>
    rw [hc] at hr
    refine quiet (by rw [hc]; rfl) (by rw [hc]; rfl) ?_
    refine hr.keep False.elim nofun ?_ nofun
    intro s n hs
    cases hs
    exact ⟨seat, rfl, rfl⟩
  | refuse hc | abandon hc | linkDown hc _ | stopped hc _ | stale hc _ | overflow hc _
  | violate hc _ | leave hc | record hc | closeQueue hc | hangUp hc | joined hc _ | drain hc
  | dismiss hc | finish hc =>
    rw [hc] at hr
    exact quiet (by rw [hc]; rfl) (by rw [hc]; rfl) (hr.stay id (.inl rfl) nofun)

end Connection
end SampleCast
