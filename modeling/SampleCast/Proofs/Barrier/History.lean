import Mathlib.Data.List.Induction
import SampleCast.Proofs.Barrier.Membership

/-! A barrier is what its history says.
A history lists the operations made on a barrier with their outcomes, the first one first. It says
by itself who is alive (issued and not left since), who takes part in the open generation (alive at
the last reset and not left since) and who has settled (acknowledged since the last reset). Main
statement: `recounts_history`, that after any operations the members, the generation and the numbers
given out are those of the history. -/

namespace SampleCast.Barrier

structure Entry where
  operation : Operation
  outcome : Outcome

abbrev History := List Entry

def history (b : Barrier) : List Operation → History
  | [] => []
  | op :: more => ⟨op, (b.apply op).1⟩ :: history (b.apply op).2 more

namespace History

variable {t : History} {e : Entry} {w : WorkerId}

/-- Some entry is as `p` says of it and of what was before it, and none after it is as `q` says. -/
def Since (t : History) (p : History → Entry → Prop) (q : Entry → Prop) : Prop :=
  ∃ before e after, t = before ++ e :: after ∧ p before e ∧ ∀ x ∈ after, ¬ q x

/-- The worker was issued and has not left since. -/
def Alive (t : History) (w : WorkerId) : Prop :=
  t.Since (fun _ e => ∃ g, e = ⟨.join, .joined w g⟩) (·.operation = .leave w)

/-- The worker was alive at the last reset and has not left since. -/
def Active (t : History) (w : WorkerId) : Prop :=
  t.Since (fun before e => e.operation = .reset ∧ before.Alive w)
    (fun e => e.operation = .reset ∨ e.operation = .leave w)

/-- An acknowledgment of the worker was accepted since the last reset. -/
def Settled (t : History) (w : WorkerId) : Prop :=
  t.Since (fun _ e => ∃ g, e = ⟨.acknowledge w g, .acknowledged (.ok ())⟩) (·.operation = .reset)

def resets (t : History) : Nat := t.countP (·.operation = .reset)

def issued (t : History) : List WorkerId :=
  t.filterMap fun e => match e.outcome with
    | .joined w _ => some w
    | _ => none

theorem eq_of_concat_eq {α : Type} {xs before after : List α} {x y : α}
    (h : xs ++ [x] = before ++ y :: after) :
    (before = xs ∧ y = x ∧ after = []) ∨
      ∃ rest, after = rest ++ [x] ∧ xs = before ++ y :: rest := by
  rcases after.eq_nil_or_concat with rfl | ⟨rest, z, rfl⟩
  · obtain ⟨rfl, he⟩ := List.append_inj' h rfl
    cases he
    exact .inl ⟨rfl, rfl, rfl⟩
  · rw [List.concat_eq_append, ← List.cons_append, ← List.append_assoc] at h
    obtain ⟨rfl, he⟩ := List.append_inj' h rfl
    cases he
    exact .inr ⟨rest, List.concat_eq_append, rfl⟩

theorem since_nil {p : History → Entry → Prop} {q : Entry → Prop} : ¬ Since [] p q := by
  intro h
  obtain ⟨before, e, after, h, -⟩ := h
  simp at h

theorem since_concat {p : History → Entry → Prop} {q : Entry → Prop} :
    Since (t ++ [e]) p q ↔ p t e ∨ (t.Since p q ∧ ¬ q e) := by
  constructor
  · intro h
    obtain ⟨before, x, after, h, hp, hq⟩ := h
    rcases eq_of_concat_eq h with ⟨rfl, rfl, -⟩ | ⟨rest, rfl, rfl⟩
    · exact .inl hp
    · exact .inr ⟨⟨before, x, rest, rfl, hp, fun z hz => hq z (by simp [hz])⟩, hq e (by simp)⟩
  · intro h
    rcases h with hp | ⟨⟨before, x, after, rfl, hp, hq⟩, he⟩
    · exact ⟨t, e, [], rfl, hp, by simp⟩
    · refine ⟨before, x, after ++ [e], by simp, hp, ?_⟩
      intro z hz
      rcases List.mem_append.mp hz with hz | hz
      · exact hq z hz
      · rw [List.mem_singleton.mp hz]
        exact he

theorem alive_concat :
    Alive (t ++ [e]) w ↔
      (∃ g, e = ⟨.join, .joined w g⟩) ∨ (t.Alive w ∧ e.operation ≠ .leave w) := since_concat

theorem active_concat :
    Active (t ++ [e]) w ↔
      (e.operation = .reset ∧ t.Alive w) ∨
      (t.Active w ∧ ¬ (e.operation = .reset ∨ e.operation = .leave w)) := since_concat

theorem settled_concat :
    Settled (t ++ [e]) w ↔
      (∃ g, e = ⟨.acknowledge w g, .acknowledged (.ok ())⟩) ∨
      (t.Settled w ∧ e.operation ≠ .reset) := since_concat

end History

variable {b : Barrier} {t : History} {w : WorkerId} {ops : List Operation} {op : Operation}

theorem applyAll_concat : b.applyAll (ops ++ [op]) = ((b.applyAll ops).apply op).2 := by
  induction ops generalizing b with
  | nil => rfl
  | cons o ops ih => exact ih

theorem applyAll_append {more : List Operation} :
    b.applyAll (ops ++ more) = (b.applyAll ops).applyAll more := by
  induction ops generalizing b with
  | nil => rfl
  | cons o ops ih => exact ih

theorem history_concat :
    b.history (ops ++ [op]) = b.history ops ++ [⟨op, ((b.applyAll ops).apply op).1⟩] := by
  induction ops generalizing b with
  | nil => rfl
  | cons o ops ih => exact congrArg (_ :: ·) ih

/-- What ties a barrier to its history after every operation. -/
structure Recounts (t : History) (b : Barrier) : Prop where
  sound : b.Sound
  generation : b.generation = t.resets
  alive : ∀ w, w ∈ b.alive ↔ t.Alive w
  pending : ∀ w, w ∈ b.pending ↔ t.Active w ∧ ¬ t.Settled w
  done : ∀ w, w ∈ b.done ↔ t.Active w ∧ t.Settled w
  issued : t.issued = List.range' 1 t.issued.length
  next : b.nextId = t.issued.length + 1
  departed : ∀ w, ⟨.leave w, .left true⟩ ∈ t → w < b.nextId ∧ w ∉ b.alive

theorem recounts_empty : Recounts [] {} := by
  constructor
  case sound => exact sound_empty
  case generation => rfl
  case issued => rfl
  case next => rfl
  case departed => simp
  all_goals
    intro w
    simp [mem_alive, mem_pending, mem_done, History.Alive, History.Active, History.since_nil]

namespace Recounts

theorem active (h : Recounts t b) (w : WorkerId) : w ∈ b.active ↔ t.Active w := by
  rw [mem_active, h.pending, h.done, ← and_or_left, and_iff_left_iff_imp]
  exact fun _ => (em _).symm

theorem join (h : Recounts t b) :
    Recounts (t ++ [⟨.join, .joined b.nextId b.generation⟩]) b.join.2 := by
  have hi : History.issued (t ++ [⟨.join, .joined b.nextId b.generation⟩]) =
      t.issued ++ [b.nextId] := by simp [History.issued]
  constructor
  case sound => exact h.sound.join
  case generation => simpa [History.resets, Barrier.join] using h.generation
  case alive =>
    intro w
    rw [History.alive_concat, mem_alive_join, h.alive, or_comm]
    simp [eq_comm]
  case pending =>
    intro w
    rw [History.active_concat, History.settled_concat, mem_pending_join, h.pending]
    simp
  case done =>
    intro w
    rw [History.active_concat, History.settled_concat, mem_done_join, h.done]
    simp
  case issued =>
    rw [hi, List.length_append, List.length_singleton, ← List.range'_append_1, ← h.issued, h.next,
      Nat.add_comm]
    rfl
  case next =>
    rw [hi, List.length_append, List.length_singleton, ← h.next]
    rfl
  case departed =>
    intro w hw
    obtain ⟨hlt, ha⟩ := h.departed w (by simpa using hw)
    refine ⟨Nat.lt_succ_of_lt hlt, ?_⟩
    rw [mem_alive_join]
    exact not_or.mpr ⟨ha, Nat.ne_of_lt hlt⟩

theorem leave (h : Recounts t b) (v : WorkerId) :
    Recounts (t ++ [⟨.leave v, .left (b.isAlive v)⟩]) (b.leave v).2 := by
  constructor
  case sound => exact h.sound.leave v
  case generation => simpa [History.resets, Barrier.leave] using h.generation
  case alive =>
    intro w
    rw [History.alive_concat, mem_alive_leave, h.alive]
    simp [eq_comm]
  case pending =>
    intro w
    rw [History.active_concat, History.settled_concat, mem_pending_leave, h.pending]
    simp [eq_comm, and_right_comm]
  case done =>
    intro w
    rw [History.active_concat, History.settled_concat, mem_done_leave, h.done]
    simp [eq_comm, and_right_comm]
  case issued => simpa [History.issued] using h.issued
  case next => simpa [History.issued, Barrier.leave] using h.next
  case departed =>
    intro w hw
    rw [mem_alive_leave, List.mem_append, List.mem_singleton] at *
    rcases hw with hw | hw
    · obtain ⟨hlt, ha⟩ := h.departed w hw
      exact ⟨hlt, fun hm => ha hm.1⟩
    · simp only [Entry.mk.injEq, Operation.leave.injEq, Outcome.left.injEq] at hw
      obtain ⟨rfl, ha⟩ := hw
      exact ⟨h.sound.lt_nextId (isAlive_iff.mp ha.symm), fun hm => hm.2 rfl⟩

theorem settle (h : Recounts t b) {v : WorkerId} (hv : v ∈ b.pending) (g : Nat) :
    Recounts (t ++ [⟨.acknowledge v g, .acknowledged (.ok ())⟩]) (b.settleAt v) := by
  have ha : t.Active v := (h.active v).mp (mem_active.mpr (.inl hv))
  constructor
  case sound => exact h.sound.settleAt v
  case generation => simpa [History.resets, settleAt] using h.generation
  case alive =>
    intro w
    rw [History.alive_concat, mem_alive_settleAt, h.alive]
    simp
  case pending =>
    intro w
    rw [History.active_concat, History.settled_concat, mem_pending_settleAt, h.pending]
    simp [and_comm, and_left_comm, eq_comm]
  case done =>
    intro w
    have hva : v ∈ b.alive := alive_of_mem (mem_pending.mp hv)
    rw [History.active_concat, History.settled_concat, mem_done_settleAt, h.done]
    by_cases hw : w = v
    · subst hw
      simp [ha, hva]
    · simp [hw, Ne.symm hw]
  case issued => simpa [History.issued] using h.issued
  case next => simpa [History.issued, settleAt] using h.next
  case departed =>
    intro w hw
    rw [mem_alive_settleAt]
    exact h.departed w (by simpa using hw)

theorem refuse (h : Recounts t b) (v : WorkerId) (g : Nat) (e : AckError) :
    Recounts (t ++ [⟨.acknowledge v g, .acknowledged (.error e)⟩]) b := by
  constructor
  case sound => exact h.sound
  case generation => simpa [History.resets] using h.generation
  case alive =>
    intro w
    rw [History.alive_concat, h.alive]
    simp
  case pending =>
    intro w
    rw [History.active_concat, History.settled_concat, h.pending]
    simp
  case done =>
    intro w
    rw [History.active_concat, History.settled_concat, h.done]
    simp
  case issued => simpa [History.issued] using h.issued
  case next => simpa [History.issued] using h.next
  case departed =>
    intro w hw
    exact h.departed w (by simpa using hw)

theorem reset (h : Recounts t b) :
    Recounts (t ++ [⟨.reset, .opened (b.generation + 1)⟩]) b.reset.2 := by
  constructor
  case sound => exact h.sound.reset
  case generation => simpa [History.resets, Barrier.reset] using h.generation
  case alive =>
    intro w
    rw [History.alive_concat, mem_alive_reset, h.alive]
    simp
  case pending =>
    intro w
    rw [History.active_concat, History.settled_concat, mem_pending_reset, h.alive]
    simp
  case done =>
    intro w
    rw [History.active_concat, History.settled_concat]
    simp
  case issued => simpa [History.issued] using h.issued
  case next => simpa [History.issued, Barrier.reset] using h.next
  case departed =>
    intro w hw
    rw [mem_alive_reset]
    exact h.departed w (by simpa using hw)

theorem shutdown (h : Recounts t b) (before after : Bool) :
    Recounts (t ++ [⟨.shutdown, .stopped before after⟩]) b.shutdown := by
  constructor
  case sound => exact h.sound.apply .shutdown
  case generation => simpa [History.resets, Barrier.shutdown] using h.generation
  case alive =>
    intro w
    rw [History.alive_concat, mem_alive_shutdown, h.alive]
    simp
  case pending =>
    intro w
    rw [History.active_concat, History.settled_concat, mem_pending_shutdown, h.pending]
    simp
  case done =>
    intro w
    rw [History.active_concat, History.settled_concat, mem_done_shutdown, h.done]
    simp
  case issued => simpa [History.issued] using h.issued
  case next => simpa [History.issued, Barrier.shutdown] using h.next
  case departed =>
    intro w hw
    exact h.departed w (by simpa using hw)

theorem step (h : Recounts t b) (op : Operation) :
    Recounts (t ++ [⟨op, (b.apply op).1⟩]) (b.apply op).2 := by
  cases op with
  | join => exact h.join
  | leave w => exact h.leave w
  | acknowledge w g =>
    rcases h.sound.acknowledge_cases w g with ⟨hw, -, he⟩ | ⟨e, he, -⟩
    · simpa only [Barrier.apply, he] using h.settle (mem_pending.mpr hw) g
    · simpa only [Barrier.apply, he] using h.refuse w g e
  | reset => exact h.reset
  | shutdown => exact h.shutdown _ _

end Recounts

theorem recounts_history (ops : List Operation) :
    Recounts (history {} ops) (applyAll {} ops) := by
  induction ops using List.reverseRecOn with
  | nil => exact recounts_empty
  | append_singleton ops op ih =>
    rw [history_concat, applyAll_concat]
    exact ih.step op

theorem Recounts.issued_nodup (h : Recounts t b) : t.issued.Nodup := by
  rw [h.issued]
  exact List.nodup_range'

end SampleCast.Barrier
