import Mathlib.Data.List.Perm.Basic
import SampleCast.Proofs.Barrier.History

/-! Independence of the workers.
What a worker is answered depends on the open generation and on how the worker itself stands, and
what it does changes nobody else. So the calls of different workers commute, and a list of calls
may be rearranged as long as the calls of each worker stay in their order. Main statement:
`applyAll_rearranged`, that every call is answered as before and the barrier ends as before. -/

namespace SampleCast.Barrier

def Operation.caller? : Operation → Option WorkerId
  | .leave w | .acknowledge w _ => some w
  | .join | .reset | .shutdown => none

def callsOf (w : WorkerId) (ops : List Operation) : List Operation :=
  ops.filter (·.caller? = some w)

def History.entriesOf (t : History) (w : WorkerId) : History :=
  t.filter (·.operation.caller? = some w)

variable {b : Barrier} {v w : WorkerId} {p q : Operation} {ops ops' : List Operation}

theorem caller?_eq_some_iff :
    p.caller? = some w ↔ p = .leave w ∨ ∃ g, p = .acknowledge w g := by
  cases p <;> simp [Operation.caller?, eq_comm]

/-! What a call depends on -/

theorem isAlive_eq : b.isAlive w = (b.standing? w).isSome := by
  rw [Bool.eq_iff_iff, standing?, Option.isSome_map, List.find?_isSome, isAlive, List.any_eq_true]

theorem acknowledge_snd (g : Nat) : (b.acknowledge w g).2 =
    if b.standing? w = some .owing ∧ g = b.generation then b.settleAt w else b := by
  unfold acknowledge
  cases hs : b.standing? w with
  | none => simp
  | some s =>
    cases s with
    | owing =>
      by_cases hg : g = b.generation
      · simp [hg, settleAt]
      · simp [hg]
    | fresh => simp
    | settled => simp

theorem acknowledge_fst_congr {b' : Barrier} (hs : b.standing? w = b'.standing? w)
    (hg : b.generation = b'.generation) (g : Nat) :
    (b.acknowledge w g).1 = (b'.acknowledge w g).1 := by
  simp only [acknowledge, hs, hg]
  cases b'.standing? w with
  | none => rfl
  | some s =>
    cases s with
    | owing => split_ifs <;> rfl
    | fresh => rfl
    | settled => rfl

theorem outcome_congr {b' : Barrier} (hp : p.caller? = some w)
    (hs : b.standing? w = b'.standing? w) (hg : b.generation = b'.generation) :
    (b.apply p).1 = (b'.apply p).1 := by
  rcases caller?_eq_some_iff.mp hp with rfl | ⟨g, rfl⟩
  · simp only [apply, Barrier.leave, isAlive_eq, hs]
  · simp only [apply, acknowledge_fst_congr hs hg]

/-! What a call leaves alone -/

theorem standing?_leave (h : v ≠ w) : (b.leave v).2.standing? w = b.standing? w := by
  have hid : (fun m : Member => decide (m.id != v ∧ m.id == w)) = fun m => m.id == w := by
    funext m
    by_cases hm : m.id = w
    · simp [hm, h.symm]
    · simp [hm]
  rw [standing?, standing?, Barrier.leave, List.find?_filter, hid]

theorem standing?_settleAt (h : v ≠ w) : (b.settleAt v).standing? w = b.standing? w := by
  have hid : (fun m : Member => m.id == w) ∘ settle v = fun m => m.id == w := by
    funext m
    simp [id_settle]
  rw [standing?, standing?, settleAt, List.find?_map, hid]
  cases hf : b.members.find? (·.id == w) with
  | none => rfl
  | some m =>
    have hm : m.id = w := by simpa using List.find?_some hf
    have hne : m.id ≠ v := hm ▸ h.symm
    simp [settle, hne]

theorem standing?_apply (hp : p.caller? = some v) (h : v ≠ w) :
    (b.apply p).2.standing? w = b.standing? w := by
  rcases caller?_eq_some_iff.mp hp with rfl | ⟨g, rfl⟩
  · exact standing?_leave h
  · simp only [apply, acknowledge_snd]
    split_ifs
    · exact standing?_settleAt h
    · rfl

theorem generation_call (hp : p.caller? = some v) : (b.apply p).2.generation = b.generation := by
  rcases caller?_eq_some_iff.mp hp with rfl | ⟨g, rfl⟩
  · rfl
  · simp only [apply, acknowledge_snd]
    split_ifs <;> rfl

theorem outcome_apply (hp : p.caller? = some v) (hq : q.caller? = some w) (h : v ≠ w) :
    ((b.apply p).2.apply q).1 = (b.apply q).1 :=
  outcome_congr hq (standing?_apply hp h) (generation_call hp)

/-! The calls of two workers commute -/

theorem leave_leave : ((b.leave v).2.leave w).2 = ((b.leave w).2.leave v).2 := by
  simp only [Barrier.leave, List.filter_filter, Bool.and_comm]

theorem settleAt_leave : (b.leave v).2.settleAt w = ((b.settleAt w).leave v).2 := by
  have hid : (fun m : Member => m.id != v) ∘ settle w = fun m => m.id != v := by
    funext m
    simp [id_settle]
  simp only [Barrier.leave, settleAt, List.filter_map, hid]

theorem settleAt_settleAt : (b.settleAt v).settleAt w = (b.settleAt w).settleAt v := by
  have hboth : settle w ∘ settle v = settle v ∘ settle w := by
    funext m
    simp only [Function.comp_apply, settle]
    split_ifs <;> rfl
  simp only [settleAt, List.map_map, hboth]

theorem leave_acknowledge (h : v ≠ w) (g : Nat) :
    ((b.leave v).2.acknowledge w g).2 = ((b.acknowledge w g).2.leave v).2 := by
  have hg : (b.leave v).2.generation = b.generation := rfl
  rw [acknowledge_snd, standing?_leave h, hg, acknowledge_snd]
  split_ifs
  · exact settleAt_leave
  · rfl

theorem acknowledge_acknowledge (h : v ≠ w) (g k : Nat) :
    ((b.acknowledge v g).2.acknowledge w k).2 = ((b.acknowledge w k).2.acknowledge v g).2 := by
  have hw : (b.acknowledge v g).2.standing? w = b.standing? w :=
    standing?_apply (p := .acknowledge v g) rfl h
  have hv : (b.acknowledge w k).2.standing? v = b.standing? v :=
    standing?_apply (p := .acknowledge w k) rfl h.symm
  have hvg : (b.acknowledge v g).2.generation = b.generation :=
    generation_call (p := .acknowledge v g) rfl
  have hwg : (b.acknowledge w k).2.generation = b.generation :=
    generation_call (p := .acknowledge w k) rfl
  rw [acknowledge_snd k, hw, hvg, acknowledge_snd g, acknowledge_snd g, hv, hwg, acknowledge_snd k]
  split_ifs
  · exact settleAt_settleAt
  · rfl
  · rfl
  · rfl

theorem apply_comm (hp : p.caller? = some v) (hq : q.caller? = some w) (h : v ≠ w) :
    ((b.apply p).2.apply q).2 = ((b.apply q).2.apply p).2 := by
  rcases caller?_eq_some_iff.mp hp with rfl | ⟨g, rfl⟩
  · rcases caller?_eq_some_iff.mp hq with rfl | ⟨k, rfl⟩
    · exact leave_leave
    · exact leave_acknowledge h k
  · rcases caller?_eq_some_iff.mp hq with rfl | ⟨k, rfl⟩
    · exact (leave_acknowledge h.symm g).symm
    · exact acknowledge_acknowledge h g k

/-! A call that is brought to the front -/

def MadeByOthers (w : WorkerId) (ops : List Operation) : Prop :=
  ∀ p ∈ ops, ∃ v, p.caller? = some v ∧ v ≠ w

section

variable {others rest : List Operation}

/-- A call that is made before calls of other workers is answered as after them, they are answered
as without it, and the barrier is the same in the end. -/
theorem apply_applyAll_comm (hq : q.caller? = some w) (ho : MadeByOthers w others) :
    ((b.applyAll others).apply q).1 = (b.apply q).1 ∧
    ((b.applyAll others).apply q).2 = (b.apply q).2.applyAll others ∧
    (b.apply q).2.history others = b.history others := by
  induction others generalizing b with
  | nil => exact ⟨rfl, rfl, rfl⟩
  | cons p others ih =>
    obtain ⟨v, hp, hv⟩ := ho p List.mem_cons_self
    obtain ⟨hanswer, hafter, hothers⟩ :=
      ih (b := (b.apply p).2) fun o h => ho o (List.mem_cons_of_mem p h)
    have hcomm := apply_comm (b := b) hp hq hv
    have hfirst : ((b.apply q).2.apply p).1 = (b.apply p).1 := outcome_apply hq hp hv.symm
    refine ⟨?_, ?_, ?_⟩
    · change (((b.apply p).2.applyAll others).apply q).1 = _
      rw [hanswer, outcome_apply hp hq hv]
    · change (((b.apply p).2.applyAll others).apply q).2 = ((b.apply q).2.apply p).2.applyAll others
      rw [hafter, hcomm]
    · change ⟨p, _⟩ :: ((b.apply q).2.apply p).2.history others = ⟨p, _⟩ :: _
      rw [hfirst, ← hcomm, hothers]

theorem history_append {more : List Operation} :
    b.history (ops ++ more) = b.history ops ++ (b.applyAll ops).history more := by
  induction ops generalizing b with
  | nil => rfl
  | cons o ops ih => exact congrArg (_ :: ·) ih

theorem map_operation_history : (b.history ops).map (·.operation) = ops := by
  induction ops generalizing b with
  | nil => rfl
  | cons o ops ih => exact congrArg (o :: ·) ih

theorem filter_middle {α : Type} {p : α → Bool} {a : α} {xs ys : List α}
    (h : p a = true → ∀ x ∈ xs, p x = false) :
    (xs ++ a :: ys).filter p = (a :: (xs ++ ys)).filter p := by
  cases ha : p a with
  | false => simp [ha]
  | true =>
    have hnone : xs.filter p = [] := by simpa using h ha
    simp [ha, hnone]

theorem MadeByOthers.not_caller (ho : MadeByOthers w others) (hq : q.caller? = some w)
    (hv : decide (q.caller? = some v) = true) (hp : p ∈ others) :
    decide (p.caller? = some v) = false := by
  obtain ⟨u, hu, hne⟩ := ho p hp
  obtain rfl : w = v := Option.some.inj (hq.symm.trans (of_decide_eq_true hv))
  simpa [hu] using hne

theorem callsOf_forward (hq : q.caller? = some w) (ho : MadeByOthers w others) (v : WorkerId) :
    callsOf v (others ++ q :: rest) = callsOf v (q :: (others ++ rest)) :=
  filter_middle fun hv _ hp => ho.not_caller hq hv hp

theorem applyAll_forward (hq : q.caller? = some w) (ho : MadeByOthers w others) :
    b.applyAll (others ++ q :: rest) = b.applyAll (q :: (others ++ rest)) := by
  obtain ⟨-, hafter, -⟩ := apply_applyAll_comm (b := b) hq ho
  change _ = (b.apply q).2.applyAll (others ++ rest)
  rw [applyAll_append, applyAll_append, ← hafter]
  rfl

theorem entriesOf_forward (hq : q.caller? = some w) (ho : MadeByOthers w others) (v : WorkerId) :
    (b.history (others ++ q :: rest)).entriesOf v =
      (b.history (q :: (others ++ rest))).entriesOf v := by
  obtain ⟨hanswer, hafter, hothers⟩ := apply_applyAll_comm (b := b) hq ho
  have hbefore : b.history (others ++ q :: rest) =
      b.history others ++ ⟨q, (b.apply q).1⟩ :: ((b.apply q).2.applyAll others).history rest := by
    rw [history_append, ← hanswer, ← hafter]
    rfl
  have hfront : b.history (q :: (others ++ rest)) = ⟨q, (b.apply q).1⟩ ::
      (b.history others ++ ((b.apply q).2.applyAll others).history rest) := by
    rw [history, history_append, hothers]
  rw [hbefore, hfront]
  have hoperations : (b.history others).map (·.operation) = others := map_operation_history
  refine filter_middle fun hv e he => ho.not_caller hq hv ?_
  rw [← hoperations]
  exact List.mem_map_of_mem he

end

theorem exists_first_call (hq : q.caller? = some w) (hcalls : ∀ p ∈ ops', ∃ v, p.caller? = some v)
    (horder : callsOf w (q :: ops) = callsOf w ops') :
    ∃ others rest, ops' = others ++ q :: rest ∧ MadeByOthers w others := by
  rw [callsOf, List.filter_cons_of_pos (by simpa using hq)] at horder
  obtain ⟨others, rest, rfl, hnone, -, -⟩ := List.filter_eq_cons_iff.mp horder.symm
  refine ⟨others, rest, rfl, ?_⟩
  intro p hp
  obtain ⟨v, hv⟩ := hcalls p (List.mem_append_left _ hp)
  refine ⟨v, hv, ?_⟩
  rintro rfl
  exact hnone p hp (by simpa using hv)

theorem callsOf_tail (h : callsOf v (q :: ops) = callsOf v (q :: ops')) :
    callsOf v ops = callsOf v ops' := by
  simp only [callsOf, List.filter_cons] at *
  split_ifs at h
  · exact (List.cons.inj h).2
  · exact h

theorem entriesOf_cons_congr {e : Entry} {t t' : History} (h : t.entriesOf w = t'.entriesOf w) :
    History.entriesOf (e :: t) w = History.entriesOf (e :: t') w := by
  simp only [History.entriesOf, List.filter_cons] at *
  rw [h]

theorem applyAll_rearranged (b : Barrier) (hcalls : ∀ p ∈ ops, ∃ w, p.caller? = some w)
    (hperm : ops.Perm ops') (horder : ∀ w, callsOf w ops = callsOf w ops') :
    b.applyAll ops = b.applyAll ops' ∧
      ∀ w, (b.history ops).entriesOf w = (b.history ops').entriesOf w := by
  -- Induction on the calls in their first order. In the other order the next one stands behind
  -- calls of other workers, and is brought to the front of them.
  induction ops generalizing b ops' with
  | nil =>
    obtain rfl := List.nil_perm.mp hperm
    exact ⟨rfl, fun _ => rfl⟩
  | cons q ops ih =>
    obtain ⟨w, hq⟩ := hcalls q List.mem_cons_self
    obtain ⟨others, rest, rfl, ho⟩ := exists_first_call hq
      (fun p hp => hcalls p (hperm.mem_iff.mpr hp)) (horder w)
    have hrest : ∀ v, callsOf v ops = callsOf v (others ++ rest) := by
      intro v
      exact callsOf_tail ((horder v).trans (callsOf_forward hq ho v))
    obtain ⟨hstate, hentries⟩ := ih (b.apply q).2 (fun p hp => hcalls p (List.mem_cons_of_mem q hp))
      (hperm.trans List.perm_middle).cons_inv hrest
    constructor
    · rw [applyAll_forward hq ho]
      exact hstate
    · intro v
      rw [entriesOf_forward hq ho v]
      exact entriesOf_cons_congr (hentries v)

def opened : Barrier := applyAll {} [.join, .join, .join, .reset]

def workerByWorker : List Operation :=
  [.acknowledge 1 1, .acknowledge 1 1, .leave 2, .acknowledge 2 1, .acknowledge 3 0]

def inTurns : List Operation :=
  [.acknowledge 3 0, .leave 2, .acknowledge 1 1, .acknowledge 2 1, .acknowledge 1 1]

theorem callsOf_inTurns (w : WorkerId) : callsOf w workerByWorker = callsOf w inTurns := by
  by_cases h1 : w = 1
  · subst h1
    rfl
  by_cases h2 : w = 2
  · subst h2
    rfl
  by_cases h3 : w = 3
  · subst h3
    rfl
  · simp [callsOf, workerByWorker, inTurns, Operation.caller?, Ne.symm h1, Ne.symm h2, Ne.symm h3]

theorem applyAll_rearranged_inTurns :
    (∀ p ∈ workerByWorker, ∃ w, p.caller? = some w) ∧ workerByWorker.Perm inTurns ∧
    (∀ w, callsOf w workerByWorker = callsOf w inTurns) ∧
    opened.applyAll workerByWorker = opened.applyAll inTurns ∧
    (opened.applyAll inTurns).pending = [3] ∧
    (opened.history inTurns).entriesOf 1 =
      [⟨.acknowledge 1 1, .acknowledged (.ok ())⟩,
        ⟨.acknowledge 1 1, .acknowledged (.error (.alreadyAcknowledged 1 1))⟩] := by
  have hcalls : ∀ p ∈ workerByWorker, ∃ w, p.caller? = some w := by
    simp [workerByWorker, Operation.caller?]
  have hperm : workerByWorker.Perm inTurns := by decide
  obtain ⟨hstate, hentries⟩ := applyAll_rearranged opened hcalls hperm callsOf_inTurns
  refine ⟨hcalls, hperm, callsOf_inTurns, hstate, by rw [← hstate]; decide, ?_⟩
  rw [← hentries]
  rfl

end SampleCast.Barrier
