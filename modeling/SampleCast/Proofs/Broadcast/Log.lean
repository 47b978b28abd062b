import SampleCast.Proofs.Broadcast.Agreement
import SampleCast.Proofs.Broadcast.Lives
import SampleCast.Proofs.Connection.Log

/-! The log of a server.
Every action records the events that it is due to record, so that the counters are those of one log.
The log is a shuffle: of one event for each generation opened, one for each connection taken, and
the logs of the connections. Main statement: `logged`. -/

namespace SampleCast

open Metrics (Event)

variable {σ : Type} {source : SampleSource σ} {station : Station} {s : σ}

namespace Producer

def events (p : Producer σ) : List Event :=
  match p.phase with
  | .opening .. => [.published]
  | _ => []

variable {hub hub' : Hub} {p p' : Producer σ}

theorem events_eq_replicate : p.events = List.replicate p.events.length .published := by
  unfold events
  split <;> rfl

theorem Step.metrics (h : Step source station hub p hub' p') :
    hub'.metrics = p.events.foldl Metrics.record hub.metrics := by
  cases h with
  | @acquire d s hp hd =>
    rw [events, hp]
    cases d.stop <;> rfl
  | halt hp | ready hp | publish hp | advance hp | fail hp =>
    rw [events, hp]
    rfl

theorem Step.generation (h : Step source station hub p hub' p') :
    hub'.barrier.generation = hub.barrier.generation + p.events.length := by
  cases h with
  | @acquire d s hp hd =>
    rw [events, hp]
    cases d.stop <;> rfl
  | halt hp | ready hp | publish hp | advance hp | fail hp =>
    rw [events, hp]
    rfl

end Producer

namespace Broadcast

def events (b : Broadcast σ) : Action → List Event
  | .produce => b.producer.events
  | .arrive _ => [.accepted]
  | .feed i _ => ((b.connections[i]?).map (·.feedEvents)).getD []
  | .send i _ => ((b.connections[i]?).map (·.sendEvents)).getD []
  | .look | .stop => []

variable {b b' : Broadcast σ} {a : Action}

theorem step_metrics (h : b.step source station a = some b') :
    b'.hub.metrics = (b.events a).foldl Metrics.record b.hub.metrics := by
  cases a with
  | produce =>
    obtain ⟨hub, p, hp, rfl⟩ := step_produce_eq_some h
    exact hp.metrics
  | look =>
    obtain ⟨a, -, rfl⟩ := step_look_eq_some h
    rfl
  | arrive incoming =>
    cases step_arrive_eq_some h
    rfl
  | feed i peer =>
    obtain ⟨c, hub, c', hc, ha, rfl⟩ := onConnection_eq_some h
    rw [events, hc]
    exact (Connection.feederStep_of_feed ha).metrics
  | send i peer =>
    obtain ⟨c, hub, c', hc, ha, rfl⟩ := onConnection_eq_some h
    rw [events, hc]
    exact (Connection.senderStep_of_send ha).metrics
  | stop =>
    cases h
    rfl

end Broadcast

theorem flatMap_range_ite {α : Type} (es : List α) {j n : Nat} (hj : j < n) :
    ((List.range n).flatMap fun i => if i = j then es else []) = es := by
  induction n with
  | zero => exact absurd hj (Nat.not_lt_zero j)
  | succ n ih =>
    rw [List.range_succ, List.flatMap_append, List.flatMap_singleton]
    by_cases hn : j = n
    · subst hn
      have hnone : ((List.range j).flatMap fun i => if i = j then es else []) = [] := by
        rw [List.flatMap_eq_nil_iff]
        intro i hi
        rw [if_neg (Nat.ne_of_lt (List.mem_range.mp hi))]
      rw [hnone, if_pos rfl, List.nil_append]
    · rw [ih (by omega), if_neg (Ne.symm hn), List.append_nil]

namespace Course

def log (r : Course σ) : List Event := r.past.flatMap fun m => m.before.events m.action

def logOf (r : Course σ) (i : Nat) : List Event := (r.moves i).flatMap Connection.Move.events

structure Logged (r : Course σ) : Prop where
  metrics : r.present.hub.metrics = r.log.foldl Metrics.record {}
  shuffle : r.log.Perm
    (List.replicate r.present.hub.barrier.generation .published ++
      List.replicate r.present.connections.length .accepted ++
      (List.range r.present.connections.length).flatMap r.logOf)

variable {r : Course σ} {a : Broadcast.Action} {b : Broadcast σ} {i j : Nat}

theorem log_concat : log ⟨r.past ++ [⟨r.present, a, b⟩], b⟩ = r.log ++ r.present.events a := by
  simp [log]

theorem logOf_concat : logOf ⟨r.past ++ [⟨r.present, a, b⟩], b⟩ i =
    r.logOf i ++ (Moment.move? i ⟨r.present, a, b⟩).toList.flatMap Connection.Move.events := by
  rw [logOf, moves_concat, List.flatMap_append]
  rfl

theorem logOf_idle (h : ∀ i, a.turn? r.present.hub i = none) :
    logOf ⟨r.past ++ [⟨r.present, a, b⟩], b⟩ = r.logOf := by
  funext i
  rw [logOf, moves_idle (h i)]
  rfl

theorem flatMap_logOf_turn {n : Nat} (hj : j < n) {v : Connection.Move}
    (hv : Moment.move? j ⟨r.present, a, b⟩ = some v)
    (hn : ∀ i, i ≠ j → Moment.move? i ⟨r.present, a, b⟩ = none) :
    ((List.range n).flatMap (logOf ⟨r.past ++ [⟨r.present, a, b⟩], b⟩)).Perm
      ((List.range n).flatMap r.logOf ++ v.events) := by
  have hmoves : ∀ i, logOf ⟨r.past ++ [⟨r.present, a, b⟩], b⟩ i =
      r.logOf i ++ if i = j then v.events else [] := by
    intro i
    rw [logOf_concat]
    split_ifs with hi
    · rw [hi, hv]
      simp
    · rw [hn i hi]
      rfl
  rw [show logOf _ = _ from funext hmoves]
  have hperm := List.flatMap_append_perm (List.range n) r.logOf fun i =>
    if i = j then v.events else []
  rw [flatMap_range_ite v.events hj] at hperm
  exact hperm.symm

theorem turn_of_step {t : Connection.Turn} {c c' : Connection} {hub : Hub}
    (hc : r.present.connections[j]? = some c) (ht : a.turn? r.present.hub j = some t) :
    Moment.move? j ⟨r.present, a, { r.present with
      hub, connections := r.present.connections.set j c' }⟩ = some ⟨c, t, c'⟩ := by
  have hset : (r.present.connections.set j c')[j]? = some c' := by
    rw [List.getElem?_set_self', hc]
    rfl
  simp [Moment.move?, ht, hc, hset]

theorem Logged.start : Logged { present := .start station s : Course σ } := ⟨rfl, .nil⟩

theorem Logged.turn {t : Connection.Turn} {c c' : Connection} {hub : Hub} (h : r.Logged)
    (hc : r.present.connections[j]? = some c) (ht : a.turn? r.present.hub j = some t)
    (hn : ∀ i, i ≠ j → a.turn? r.present.hub i = none)
    (hes : r.present.events a = Connection.Move.events ⟨c, t, c'⟩)
    (hg : hub.barrier.generation = r.present.hub.barrier.generation) :
    let b := { r.present with hub, connections := r.present.connections.set j c' }
    (log ⟨r.past ++ [⟨r.present, a, b⟩], b⟩).Perm
      (List.replicate b.hub.barrier.generation .published ++
        List.replicate b.connections.length .accepted ++
        (List.range b.connections.length).flatMap (logOf ⟨r.past ++ [⟨r.present, a, b⟩], b⟩)) := by
  intro b
  have hlen : b.connections.length = r.present.connections.length := List.length_set
  have hj : j < r.present.connections.length := (List.getElem?_eq_some_iff.mp hc).1
  have hparts := flatMap_logOf_turn (b := b) hj (turn_of_step hc ht)
    (fun i hi => by simp [Moment.move?, hn i hi])
  rw [log_concat, hlen, hes]
  change List.Perm _ (List.replicate hub.barrier.generation _ ++ _ ++ _)
  rw [hg]
  refine List.perm_iff_count.mpr fun e => ?_
  have hbefore := h.shuffle.count_eq e
  have hafter := hparts.count_eq e
  simp only [List.count_append] at hbefore hafter ⊢
  omega

theorem Logged.shuffle_step (h : r.Logged) (hs : r.present.hub.barrier.Sound)
    (hl : ∀ i, r.Lives station i) (hb : r.present.step source station a = some b) :
    (log ⟨r.past ++ [⟨r.present, a, b⟩], b⟩).Perm
      (List.replicate b.hub.barrier.generation .published ++
        List.replicate b.connections.length .accepted ++
        (List.range b.connections.length).flatMap (logOf ⟨r.past ++ [⟨r.present, a, b⟩], b⟩)) := by
  have hshuffle := h.shuffle
  cases a with
  | produce =>
    obtain ⟨hub, p, hp, rfl⟩ := Broadcast.step_produce_eq_some hb
    rw [log_concat, logOf_idle fun _ => rfl, Broadcast.events, Producer.events_eq_replicate]
    change List.Perm _ (List.replicate hub.barrier.generation _ ++ _ ++ _)
    rw [hp.generation, List.replicate_add]
    refine List.perm_iff_count.mpr fun e => ?_
    have hbefore := hshuffle.count_eq e
    simp only [List.count_append] at hbefore ⊢
    omega
  | look =>
    obtain ⟨a, -, rfl⟩ := Broadcast.step_look_eq_some hb
    rw [log_concat, logOf_idle fun _ => rfl, Broadcast.events, List.append_nil]
    exact hshuffle
  | arrive incoming =>
    have hnew : r.logOf r.present.connections.length = [] := by
      rw [logOf, (hl _).absent (List.getElem?_eq_none (Nat.le_refl _))]
      rfl
    cases Broadcast.step_arrive_eq_some hb
    rw [log_concat, logOf_idle fun _ => rfl, Broadcast.events, List.length_append,
      List.length_singleton, List.range_succ, List.flatMap_append, List.flatMap_singleton, hnew,
      List.append_nil, List.replicate_succ', Hub.barrier_record]
    refine List.perm_iff_count.mpr fun e => ?_
    have hbefore := hshuffle.count_eq e
    simp only [List.count_append] at hbefore ⊢
    omega
  | feed j peer =>
    obtain ⟨c, hub, c', hc, ha, rfl⟩ := Broadcast.onConnection_eq_some hb
    refine h.turn hc (if_pos rfl) (fun i hi => if_neg hi.symm) ?_
      ((Connection.feederStep_of_feed ha).undisturbed hs).generation
    rw [Broadcast.events, hc]
    exact (List.append_nil _).symm
  | send j peer =>
    obtain ⟨c, hub, c', hc, ha, rfl⟩ := Broadcast.onConnection_eq_some hb
    refine h.turn hc (if_pos rfl) (fun i hi => if_neg hi.symm) ?_
      (congrArg Barrier.generation (Connection.senderStep_of_send ha).barrier)
    rw [Broadcast.events, hc]
    rfl
  | stop =>
    cases hb
    rw [log_concat, logOf_idle fun _ => rfl, Broadcast.events, List.append_nil]
    exact hshuffle

theorem logged (schedule : List Broadcast.Action) :
    Logged (run source station s schedule) := by
  refine (act_induction (P := fun r => Broadcast.Agreement station r.present ∧
    (∀ i, r.Lives station i) ∧ r.Logged) ⟨.start, fun _ => .start, .start⟩ ?_ schedule).2.2
  intro r a b ⟨ha, hl, h⟩ hb
  refine ⟨ha.step (Broadcast.step_of_eq_some hb), fun i => (hl i).step hb, ?_,
    h.shuffle_step ha.sound hl hb⟩
  rw [Broadcast.step_metrics hb, log_concat, List.foldl_append, ← h.metrics]

end Course
end SampleCast
