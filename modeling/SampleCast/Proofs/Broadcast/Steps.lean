import SampleCast.Broadcast.Basic
import SampleCast.Proofs.Connection.Steps

/-! The steps of a running server, case by case.
`Producer.Step` lists what one action of the producer can do and `Broadcast.Step` what one action of
anybody can do to the whole server. -/

namespace SampleCast

variable {σ : Type} {source : SampleSource σ} {station : Station}

namespace Producer

inductive Step (source : SampleSource σ) (station : Station) (hub : Hub) (p : Producer σ) :
    Hub → Producer σ → Prop
  | halt (hp : p.phase = .awaiting) (hr : hub.barrier.readiness = some .stopped) :
      Step source station hub p hub { p with phase := .ended (.ok p.stats) }
  | ready {g : Nat} (hp : p.phase = .awaiting) (hr : hub.barrier.readiness = some (.ready g)) :
      Step source station hub p hub { p with phase := .acquiring }
  | acquire {d : Delivery} {s : σ} (hp : p.phase = .acquiring)
      (hd : source.acquire p.source (p.demand station) = (d, s)) :
      Step source station hub p (if d.stop then hub.stop else hub) (p.receive station d s)
  | publish {points : UInt32} (hp : p.phase = .publishing points) :
      Step source station hub p
        (hub.publish (hub.barrier.generation + 1) (p.block station points))
        { p with phase := .opening points (p.block station points).timestamp }
  | advance {points : UInt32} {timestamp : UInt64} (hp : p.phase = .opening points timestamp) :
      Step source station hub p (hub.advance.record .published)
        { p with stats := countBlock p.stats points timestamp, phase := .awaiting }
  | fail {e : ProducerError} (hp : p.phase = .failing e) :
      Step source station hub p hub.stop { p with phase := .ended (.error e) }

theorem step_of_eq_some {hub hub' : Hub} {p p' : Producer σ}
    (h : p.step source station hub = some (hub', p')) : Step source station hub p hub' p' := by
  unfold step at h
  cases hp : p.phase with
  | awaiting =>
    simp only [hp] at h
    cases hr : hub.barrier.readiness with
    | none => simp [hr] at h
    | some r =>
      cases r with
      | ready g =>
        simp only [hr] at h
        cases h
        exact .ready hp hr
      | stopped =>
        simp only [hr] at h
        cases h
        exact .halt hp hr
  | acquiring =>
    simp only [hp] at h
    cases h
    exact .acquire hp rfl
  | publishing points =>
    simp only [hp] at h
    cases h
    exact .publish hp
  | opening points timestamp =>
    simp only [hp] at h
    cases h
    exact .advance hp
  | failing e =>
    simp only [hp] at h
    cases h
    exact .fail hp
  | ended r => simp [hp] at h

theorem Step.barrier {hub hub' : Hub} {p p' : Producer σ} (h : Step source station hub p hub' p') :
    hub'.barrier = hub.barrier ∨ hub'.barrier = hub.barrier.shutdown ∨
      hub'.barrier = hub.barrier.reset.2 := by
  cases h with
  | halt | ready | publish => exact .inl rfl
  | @acquire d s hp hd =>
    split_ifs
    · exact .inr (.inl rfl)
    · exact .inl rfl
  | advance => exact .inr (.inr rfl)
  | fail => exact .inr (.inl rfl)

end Producer

namespace Broadcast

inductive Step (source : SampleSource σ) (station : Station) (b : Broadcast σ) :
    Broadcast σ → Prop
  | produce {hub : Hub} {p : Producer σ}
      (hp : Producer.Step source station b.hub b.producer hub p) :
      Step source station b { b with hub, producer := p }
  | look {a : AcceptorPhase} (ha : a = .closed → b.hub.barrier.stopped = true) :
      Step source station b { b with acceptor := a }
  | arrive {incoming : List Reading} :
      Step source station b
        { b with
          hub := b.hub.record .accepted
          acceptor := .checking
          connections := b.connections ++ [.accept station incoming] }
  | feed {i : Nat} {c c' : Connection} {hub : Hub} (hc : b.connections[i]? = some c)
      (hf : Connection.FeederStep station b.hub c hub c') :
      Step source station b { b with hub, connections := b.connections.set i c' }
  | send {i : Nat} {c c' : Connection} {hub : Hub} (hc : b.connections[i]? = some c)
      (hs : Connection.SenderStep b.hub c hub c') :
      Step source station b { b with hub, connections := b.connections.set i c' }
  | stop : Step source station b { b with hub := b.hub.stop }

variable {b b' : Broadcast σ}

theorem onConnection_eq_some {i : Nat} {act : Connection → Option (Hub × Connection)}
    (h : b.onConnection i act = some b') :
    ∃ c hub c', b.connections[i]? = some c ∧ act c = some (hub, c') ∧
      b' = { b with hub, connections := b.connections.set i c' } := by
  unfold onConnection at h
  cases hc : b.connections[i]? with
  | none => simp [hc] at h
  | some c =>
    rcases ha : act c with _ | ⟨hub, c'⟩
    · simp [hc, ha] at h
    · have hb : { b with hub, connections := b.connections.set i c' } = b' := by
        simpa [hc, ha] using h
      exact ⟨c, hub, c', rfl, ha, hb.symm⟩

theorem step_produce_eq_some (h : b.step source station .produce = some b') :
    ∃ hub p, Producer.Step source station b.hub b.producer hub p ∧
      b' = { b with hub, producer := p } := by
  simp only [step] at h
  rcases hp : b.producer.step source station b.hub with _ | ⟨hub, p⟩
  · simp [hp] at h
  · simp only [hp] at h
    cases h
    exact ⟨hub, p, Producer.step_of_eq_some hp, rfl⟩

theorem step_look_eq_some (h : b.step source station .look = some b') :
    ∃ a, (a = .closed → b.hub.barrier.stopped = true) ∧ b' = { b with acceptor := a } := by
  simp only [step, Broadcast.look] at h
  cases hc : b.acceptor with
  | checking =>
    simp only [hc] at h
    cases h
    refine ⟨_, ?_, rfl⟩
    split_ifs with hs
    · exact fun _ => hs
    · exact nofun
  | listening =>
    simp only [hc] at h
    cases h
    exact ⟨.checking, nofun, rfl⟩
  | closed => simp [hc] at h

theorem step_arrive_eq_some {incoming : List Reading}
    (h : b.step source station (.arrive incoming) = some b') :
    b' = { b with
      hub := b.hub.record .accepted
      acceptor := .checking
      connections := b.connections ++ [.accept station incoming] } := by
  simp only [step, Broadcast.arrive] at h
  cases hc : b.acceptor with
  | listening =>
    simp only [hc] at h
    cases h
    rfl
  | checking => simp [hc] at h
  | closed => simp [hc] at h

theorem step_of_eq_some {a : Action} (h : b.step source station a = some b') :
    Step source station b b' := by
  cases a with
  | produce =>
    obtain ⟨hub, p, hp, rfl⟩ := step_produce_eq_some h
    exact .produce hp
  | look =>
    obtain ⟨a, ha, rfl⟩ := step_look_eq_some h
    exact .look ha
  | arrive incoming =>
    cases step_arrive_eq_some h
    exact .arrive
  | feed i peer =>
    obtain ⟨c, hub, c', hc, ha, rfl⟩ := onConnection_eq_some h
    exact .feed hc (Connection.feederStep_of_feed ha)
  | send i peer =>
    obtain ⟨c, hub, c', hc, ha, rfl⟩ := onConnection_eq_some h
    exact .send hc (Connection.senderStep_of_send ha)
  | stop =>
    cases h
    exact .stop

theorem getElem?_concat_cases {α : Type} (xs : List α) (a : α) (i : Nat) :
    (xs ++ [a])[i]? = xs[i]? ∨ (xs[i]? = none ∧ (xs ++ [a])[i]? = some a) := by
  rcases Nat.lt_trichotomy i xs.length with hi | rfl | hi
  · exact .inl (List.getElem?_append_left hi)
  · exact .inr ⟨List.getElem?_eq_none (Nat.le_refl _), by simp⟩
  · left
    rw [List.getElem?_eq_none (Nat.le_of_lt hi), List.getElem?_eq_none]
    rw [List.length_append, List.length_singleton]
    omega

theorem getElem?_set_cases {α : Type} {xs : List α} {j : Nat} {a : α} (ha : xs[j]? = some a)
    (a' : α) (i : Nat) :
    (j ≠ i ∧ (xs.set j a')[i]? = xs[i]?) ∨ (j = i ∧ (xs.set j a')[i]? = some a') := by
  by_cases hj : j = i
  · subst hj
    exact .inr ⟨rfl, by rw [List.getElem?_set_self', ha]; rfl⟩
  · exact .inl ⟨hj, List.getElem?_set_ne hj⟩

/-- What an action does to one connection: nothing, or it takes the connection, or it is an action
of one of its workers. -/
theorem Step.connection (h : Step source station b b') (i : Nat) :
    b'.connections[i]? = b.connections[i]? ∨
    (b.connections[i]? = none ∧
      ∃ incoming, b'.connections[i]? = some (.accept station incoming)) ∨
    ∃ c c', b.connections[i]? = some c ∧ b'.connections[i]? = some c' ∧
      (Connection.FeederStep station b.hub c b'.hub c' ∨
        Connection.SenderStep b.hub c b'.hub c') := by
  cases h with
  | produce | look | stop => exact .inl rfl
  | @arrive incoming =>
    rcases getElem?_concat_cases b.connections (.accept station incoming) i with hi | ⟨hn, hi⟩
    · exact .inl hi
    · exact .inr (.inl ⟨hn, incoming, hi⟩)
  | @feed j c c' hub hc hf =>
    rcases getElem?_set_cases hc c' i with ⟨-, hi⟩ | ⟨rfl, hi⟩
    · exact .inl hi
    · exact .inr (.inr ⟨c, c', hc, hi, .inl hf⟩)
  | @send j c c' hub hc hs =>
    rcases getElem?_set_cases hc c' i with ⟨-, hi⟩ | ⟨rfl, hi⟩
    · exact .inl hi
    · exact .inr (.inr ⟨c, c', hc, hi, .inr hs⟩)

end Broadcast
end SampleCast
