import SampleCast.Proofs.Broadcast.Delivery
import SampleCast.Proofs.Broadcast.Lives

/-! Who sits at the barrier.
A number is given to the worker of a connection when it joins the barrier, to no other, and it is
taken away when the worker leaves. So the members of the barrier are at every moment the workers
that have joined and not left. Main statements: `mem_alive_iff` and `mem_alive_iff_of_joined`. -/

namespace SampleCast

namespace Connection

inductive Seating (b : Barrier) (p : FeederPhase) (b' : Barrier) (q : FeederPhase) : Prop
  | keep (hq : q.worker? = p.worker?) (hj : p.joined? q = none)
      (ha : ∀ w, w ∈ b'.alive ↔ w ∈ b.alive) (hn : b'.nextId = b.nextId)
  | join {seat : Seat} (hp : p.worker? = none) (hq : q.worker? = some seat.worker)
      (hj : p.joined? q = some seat) (hs : seat.worker = b.nextId) (hb : b' = b.join.2)
  | leave {w : WorkerId} (hp : p.worker? = some w) (hj : p.joined? q = none)
      (hb : b' = (b.leave w).2)

variable {station : Station} {hub hub' : Hub} {c c' : Connection}

theorem FeederStep.seating (h : FeederStep station hub c hub' c') (hs : hub.barrier.Sound) :
    Seating hub.barrier c.feeder hub'.barrier c'.feeder := by
  cases h with
  | read hc hr =>
    rw [hc]
    rcases consider_cases station _ with ⟨e, he⟩ | ⟨channels, he⟩ <;> rw [he] <;>
      exact .keep rfl rfl (fun _ => Iff.rfl) rfl
  | join hc =>
    rw [hc]
    exact .join rfl rfl rfl rfl rfl
  | abandon hc | leave hc =>
    rw [hc]
    exact .leave rfl rfl rfl
  | acknowledge hc ha | violate hc ha =>
    cases congrArg Prod.snd ha
    rw [hc]
    exact .keep rfl rfl (fun _ => hs.mem_alive_acknowledge) hs.nextId_acknowledge
  | record hc =>
    rw [hc, Hub.barrier_recordAll]
    exact .keep rfl rfl (fun _ => Iff.rfl) rfl
  | _ hc =>
    rw [hc]
    exact .keep rfl rfl (fun _ => Iff.rfl) rfl

end Connection

variable {σ : Type} {source : SampleSource σ} {station : Station} {s : σ}

def Broadcast.worker? (b : Broadcast σ) (i : Nat) : Option WorkerId :=
  (b.feeder? i).bind (·.worker?)

theorem Broadcast.worker?_of_getElem? {b : Broadcast σ} {i : Nat} {c : Connection}
    (h : b.connections[i]? = some c) : b.worker? i = c.feeder.worker? := by
  rw [worker?, feeder?_of_getElem? h]
  rfl

namespace Course

/-- Every number in use was issued, to one connection, and every member of the barrier is the worker
of a connection. -/
structure Seated (r : Course σ) : Prop where
  issued : ∀ i seat, r.joined? i = some seat → seat.worker < r.present.hub.barrier.nextId
  apart : ∀ i j seat seat', r.joined? i = some seat → r.joined? j = some seat' →
    seat.worker = seat'.worker → i = j
  alive : ∀ w ∈ r.present.hub.barrier.alive, ∃ i, r.present.worker? i = some w

variable {r : Course σ} {a : Broadcast.Action} {b : Broadcast σ} {i j : Nat} {w : WorkerId}
  {c c' : Connection} {hub : Hub} {seat : Seat}

namespace Seated

theorem start : Seated { present := .start station s : Course σ } :=
  ⟨nofun, nofun, nofun⟩

theorem keep (h : r.Seated) (hj : ∀ i, Moment.joined? i ⟨r.present, a, b⟩ = none)
    (hn : b.hub.barrier.nextId = r.present.hub.barrier.nextId)
    (ha : ∀ w ∈ b.hub.barrier.alive, w ∈ r.present.hub.barrier.alive ∧
      ∀ i, r.present.worker? i = some w → b.worker? i = some w) :
    Seated ⟨r.past ++ [⟨r.present, a, b⟩], b⟩ := by
  have hjoined : ∀ i, joined? ⟨r.past ++ [⟨r.present, a, b⟩], b⟩ i = r.joined? i := by
    intro i
    rw [joined?_concat, hj, Option.or_none]
  constructor
  case issued =>
    intro i seat hi
    rw [hjoined] at hi
    exact hn ▸ h.issued i seat hi
  case apart =>
    intro i j seat seat' hi hk
    rw [hjoined] at hi hk
    exact h.apart i j seat seat' hi hk
  case alive =>
    intro w hw
    obtain ⟨hbefore, hstay⟩ := ha w hw
    obtain ⟨i, hi⟩ := h.alive w hbefore
    exact ⟨i, hstay i hi⟩

theorem join (h : r.Seated)
    (hj : ∀ i, Moment.joined? i ⟨r.present, a, b⟩ = if j = i then some seat else none)
    (hs : seat.worker = r.present.hub.barrier.nextId)
    (hb : b.hub.barrier = r.present.hub.barrier.join.2)
    (hw : ∀ i w, r.present.worker? i = some w → b.worker? i = some w)
    (hnew : b.worker? j = some seat.worker) :
    Seated ⟨r.past ++ [⟨r.present, a, b⟩], b⟩ := by
  have hjoined : ∀ i x, joined? ⟨r.past ++ [⟨r.present, a, b⟩], b⟩ i = some x →
      r.joined? i = some x ∨ (j = i ∧ seat = x) := by
    intro i x hi
    rw [joined?_concat, hj, Option.or_eq_some_iff] at hi
    rcases hi with hi | ⟨-, hi⟩
    · exact .inl hi
    · split_ifs at hi with hij
      cases hi
      exact .inr ⟨hij, rfl⟩
  constructor
  case issued =>
    intro i x hi
    change x.worker < b.hub.barrier.nextId
    rw [hb]
    rcases hjoined i x hi with hi | ⟨-, rfl⟩
    · exact Nat.lt_succ_of_lt (h.issued i x hi)
    · rw [hs]
      exact Nat.lt_succ_self _
  case apart =>
    -- Of two seats with one number neither is new, since the new one has a number never issued.
    intro i k x y hi hk hxy
    rcases hjoined i x hi with hi | ⟨rfl, rfl⟩ <;> rcases hjoined k y hk with hk | ⟨rfl, rfl⟩
    · exact h.apart i k x y hi hk hxy
    · exact absurd (hxy.trans hs) (Nat.ne_of_lt (h.issued i x hi))
    · exact absurd (hxy.symm.trans hs) (Nat.ne_of_lt (h.issued k y hk))
    · rfl
  case alive =>
    intro w hmem
    change w ∈ b.hub.barrier.alive at hmem
    rw [hb, Barrier.mem_alive_join] at hmem
    rcases hmem with hmem | rfl
    · obtain ⟨i, hi⟩ := h.alive w hmem
      exact ⟨i, hw i w hi⟩
    · exact ⟨j, hs ▸ hnew⟩

theorem feed (h : r.Seated) (hag : Broadcast.Agreement station r.present)
    (hc : r.present.connections[j]? = some c)
    (hf : Connection.FeederStep station r.present.hub c hub c') :
    let b := { r.present with hub, connections := r.present.connections.set j c' }
    Seated ⟨r.past ++ [⟨r.present, a, b⟩], b⟩ := by
  intro b
  have hworker : ∀ i, b.worker? i = if j = i then c'.feeder.worker? else r.present.worker? i := by
    intro i
    rw [Broadcast.worker?, Broadcast.feeder?_set hc]
    split_ifs <;> rfl
  have hjoined : ∀ i, Moment.joined? i ⟨r.present, a, b⟩ =
      if j = i then c.feeder.joined? c'.feeder else none := by
    intro i
    split_ifs with hi
    · subst hi
      refine (Moment.fed (m := ⟨r.present, a, b⟩) (Broadcast.feeder?_of_getElem? hc) ?_).1
      exact (Broadcast.feeder?_set hc).trans (if_pos rfl)
    · refine (Moment.idle (m := ⟨r.present, a, b⟩) fun p hp => ?_).1
      exact ((Broadcast.feeder?_set hc).trans (if_neg hi)).trans hp
  have hown := Broadcast.worker?_of_getElem? hc
  cases hf.seating hag.sound with
  | keep hq hj ha hn =>
    refine h.keep (fun i => ?_) hn fun w hw => ⟨(ha w).mp hw, fun i hi => ?_⟩
    · rw [hjoined, hj, ite_self]
    · rw [hworker]
      split_ifs with hij
      · rw [hq, ← hown, hij, hi]
      · exact hi
  | join hp hq hj hs hb =>
    refine h.join (j := j) (fun i => ?_) hs hb (fun i w hi => ?_) ?_
    · rw [hjoined, hj]
    · rw [hworker, if_neg, hi]
      rintro rfl
      rw [hown, hp] at hi
      cases hi
    · rw [hworker, if_pos rfl, hq]
  | leave hp hj hb =>
    have hn : hub.barrier.nextId = r.present.hub.barrier.nextId := by
      rw [hb]
      rfl
    refine h.keep (fun i => ?_) hn fun w hw => ?_
    · rw [hjoined, hj, ite_self]
    · change w ∈ hub.barrier.alive at hw
      rw [hb, Barrier.mem_alive_leave] at hw
      refine ⟨hw.1, fun i hi => ?_⟩
      rw [hworker, if_neg, hi]
      rintro rfl
      rw [hown, hp] at hi
      cases hi
      exact hw.2 rfl

theorem idle (h : r.Seated)
    (hp : ∀ i p, r.present.feeder? i = some p → b.feeder? i = some p)
    (hn : b.hub.barrier.nextId = r.present.hub.barrier.nextId)
    (ha : ∀ w ∈ b.hub.barrier.alive, w ∈ r.present.hub.barrier.alive) :
    Seated ⟨r.past ++ [⟨r.present, a, b⟩], b⟩ := by
  refine h.keep (fun i => (Moment.idle (hp i)).1) hn fun w hw => ⟨ha w hw, fun i hi => ?_⟩
  obtain ⟨p, hi, hw⟩ := Option.bind_eq_some_iff.mp hi
  rw [Broadcast.worker?, hp i p hi]
  exact hw

theorem step (h : r.Seated) (hag : Broadcast.Agreement station r.present)
    (hb : Broadcast.Step source station r.present b) :
    Seated ⟨r.past ++ [⟨r.present, a, b⟩], b⟩ := by
  cases hb with
  | @produce hub p hp =>
    have hbar : hub.barrier.nextId = r.present.hub.barrier.nextId ∧
        ∀ w ∈ hub.barrier.alive, w ∈ r.present.hub.barrier.alive := by
      rcases hp.barrier with he | he | he <;> rw [he]
      · exact ⟨rfl, fun _ hw => hw⟩
      · exact ⟨rfl, fun _ hw => hw⟩
      · exact ⟨rfl, fun _ hw => Barrier.mem_alive_reset.mp hw⟩
    exact h.idle (fun _ _ hi => hi) hbar.1 hbar.2
  | look | stop => exact h.idle (fun _ _ hi => hi) rfl fun _ hw => hw
  | @arrive incoming =>
    refine h.idle (fun i p hi => ?_) rfl fun _ hw => hw
    obtain ⟨c, hc, -⟩ := Option.map_eq_some_iff.mp hi
    rw [← hi]
    refine congrArg (Option.map _) (List.getElem?_append_left ?_)
    exact (List.getElem?_eq_some_iff.mp hc).1
  | feed hc hf => exact h.feed hag hc hf
  | send hc hs =>
    refine h.idle (fun i p hi => ?_) (congrArg Barrier.nextId hs.barrier) ?_
    · rw [Broadcast.feeder?_set_of_feeder hc hs.feeder, hi]
    · exact fun w hw => hs.barrier ▸ hw

end Seated

theorem seated (schedule : List Broadcast.Action) :
    Seated (run source station s schedule) :=
  (run_induction (P := fun r => Broadcast.Agreement station r.present ∧ r.Seated)
    ⟨.start, .start⟩ (fun _ _ _ h hb => ⟨h.1.step hb, h.2.step h.1 hb⟩) schedule).2

theorem mem_alive_iff (source : SampleSource σ) (station : Station) (s : σ)
    (schedule : List Broadcast.Action) (w : WorkerId) :
    let r := run source station s schedule
    w ∈ r.present.hub.barrier.alive ↔
      ∃ i seat, r.joined? i = some seat ∧ seat.worker = w ∧ r.left? i = none := by
  intro r
  have hseated : r.Seated := seated schedule
  constructor
  · intro hw
    obtain ⟨i, hi⟩ := hseated.alive w hw
    obtain ⟨p, hp, hpw⟩ := Option.bind_eq_some_iff.mp hi
    obtain ⟨c, hc, rfl⟩ := Option.map_eq_some_iff.mp hp
    obtain ⟨hj, hl⟩ := (membership schedule hc).present w hpw
    obtain ⟨seat, hseat, hworker⟩ := Option.map_eq_some_iff.mp hj
    exact ⟨i, seat, hseat, hworker, hl⟩
  · rintro ⟨i, seat, hj, rfl, hl⟩
    obtain ⟨c, hc⟩ := exists_of_joined? schedule hj
    have hw : c.feeder.worker? = some seat.worker := by
      refine (membership schedule hc).worker?_eq_some_iff.mpr ⟨?_, hl⟩
      rw [hj, Option.map_some]
    exact (Broadcast.Agreement.run schedule).alive (Broadcast.feeder?_of_getElem? hc) hw

theorem mem_alive_iff_of_joined (source : SampleSource σ) (station : Station) (s : σ)
    (schedule : List Broadcast.Action) {i : Nat} {seat : Seat} :
    let r := run source station s schedule
    r.joined? i = some seat → (seat.worker ∈ r.present.hub.barrier.alive ↔ r.left? i = none) := by
  intro r hi
  refine (mem_alive_iff source station s schedule seat.worker).trans ?_
  constructor
  · rintro ⟨j, seat', hj, hworker, hl⟩
    cases (seated schedule).apart i j seat seat' hi hj hworker.symm
    exact hl
  · intro hl
    exact ⟨i, seat, hi, rfl, hl⟩

theorem not_mem_alive_of_gone (schedule : List Broadcast.Action) {i : Nat} {c : Connection}
    {seat : Seat} (hc : (run source station s schedule).present.connections[i]? = some c)
    (hu : ¬ c.feeder.IsUnjoined) (hw : c.feeder.worker? = none)
    (hj : (run source station s schedule).joined? i = some seat) :
    seat.worker ∉ (run source station s schedule).present.hub.barrier.alive := by
  rw [mem_alive_iff_of_joined source station s schedule hj, (membership schedule hc).gone hu hw, hj,
    Option.map_some]
  exact nofun

end Course
end SampleCast
