import SampleCast.Proofs.Barrier.Sets

/-! The four sets and the members are one barrier.
The members of a barrier mirror its four sets: a worker is in a set if a member of that number
stands as the set says. They stay so, operation by operation, and answer alike as long as no counter
of 64 bits turns over, that is for fewer than 2^64 joins and as many generations. Main statements:
`Mirrors.applyAll`, and `applyAll_eq_history`, that the four sets, the generation and every answer
are what the history of the operations says. -/

namespace SampleCast.Barrier

variable {s : Sets} {b : Barrier} {w g : UInt64} {op : WordOperation} {ops : List WordOperation}

namespace Sets

structure Mirrors (s : Sets) (b : Barrier) : Prop where
  lawful : s.Lawful
  sound : b.Sound
  generation : s.generation.toNat = b.generation
  nextId : s.nextId = .ofNat b.nextId
  words : b.nextId ≤ UInt64.size
  stopped : s.stopped = b.stopped
  alive : ∀ w, w ∈ s.alive ↔ w.toNat ∈ b.alive
  pending : ∀ w, w ∈ s.pending ↔ w.toNat ∈ b.pending
  done : ∀ w, w ∈ s.done ↔ w.toNat ∈ b.done

/-- The counters of 64 bits have room for the operations. The number of the last worker is the one
before the next. -/
structure Room (b : Barrier) (ops : List WordOperation) : Prop where
  joins : ops.count .join + b.nextId ≤ UInt64.size
  resets : ops.count .reset + b.generation < UInt64.size

theorem mirrors_empty : Mirrors {} {} := by
  constructor
  case lawful => exact lawful_empty
  case sound => exact sound_empty
  case generation => rfl
  case nextId => rfl
  case words => decide
  case stopped => rfl
  all_goals simp [mem_alive, mem_pending, mem_done]

theorem toNat_ne_iff {v : UInt64} : v.toNat ≠ w.toNat ↔ v ≠ w := UInt64.toNat_inj.not

theorem mem_erase_iff {set : Finset UInt64} {list : List WorkerId} {v : UInt64}
    (h : ∀ w, w ∈ set ↔ w.toNat ∈ list) :
    w ∈ set.erase v ↔ w.toNat ∈ list ∧ w.toNat ≠ v.toNat := by
  rw [Finset.mem_erase, ← h, toNat_ne_iff, and_comm]

theorem mem_insert_iff {set : Finset UInt64} {list : List WorkerId} {v : UInt64}
    (h : ∀ w, w ∈ set ↔ w.toNat ∈ list) :
    w ∈ insert v set ↔ w.toNat ∈ list ∨ w.toNat = v.toNat := by
  rw [Finset.mem_insert, ← h, UInt64.toNat_inj, or_comm]

theorem Room.nextId_lt (h : Room b (.join :: ops)) : b.nextId < UInt64.size := by
  have hj := h.joins
  rw [List.count_cons_self, Nat.add_right_comm] at hj
  exact Nat.lt_of_le_of_lt (Nat.le_add_left _ _) (Nat.lt_of_succ_le hj)

theorem Room.generation_lt (h : Room b (.reset :: ops)) : b.generation + 1 < UInt64.size := by
  have hr := h.resets
  rw [List.count_cons_self] at hr
  omega

theorem Room.tail (h : Room b (op :: ops)) (hs : b.Sound) :
    Room (b.apply op.toOperation).2 ops := by
  obtain ⟨hj, hr⟩ := h
  cases op with
  | join =>
    rw [List.count_cons_self] at hj
    rw [List.count_cons_of_ne (by simp)] at hr
    exact ⟨(Nat.add_right_comm _ _ _).symm.trans_le hj, hr⟩
  | leave w =>
    rw [List.count_cons_of_ne (by simp)] at hj hr
    exact ⟨hj, hr⟩
  | acknowledge w g =>
    rw [List.count_cons_of_ne (by simp)] at hj hr
    constructor
    · change ops.count .join + (b.acknowledge w.toNat g.toNat).2.nextId ≤ UInt64.size
      rwa [hs.nextId_acknowledge]
    · rw [hs.generation_apply (by simp [WordOperation.toOperation])]
      exact hr
  | reset =>
    rw [List.count_cons_of_ne (by simp)] at hj
    rw [List.count_cons_self] at hr
    exact ⟨hj, (Nat.add_right_comm _ _ _).symm.trans_lt hr⟩
  | shutdown =>
    rw [List.count_cons_of_ne (by simp)] at hj hr
    exact ⟨hj, hr⟩

namespace Mirrors

theorem active (h : s.Mirrors b) (w : UInt64) : w ∈ s.active ↔ w.toNat ∈ b.active := by
  rw [h.lawful.mem_active, h.pending, h.done, mem_active]

theorem eq_generation_iff (h : s.Mirrors b) : g = s.generation ↔ g.toNat = b.generation := by
  rw [← h.generation, UInt64.toNat_inj]

theorem toNat_nextId (h : s.Mirrors b) (hn : b.nextId < UInt64.size) :
    s.nextId.toNat = b.nextId := by
  rw [h.nextId, UInt64.toNat_ofNat_of_lt' hn]

theorem join (h : s.Mirrors b) (hn : b.nextId < UInt64.size) : s.join.2.Mirrors b.join.2 := by
  constructor
  case lawful => exact h.lawful.join
  case sound => exact h.sound.join
  case generation => exact h.generation
  case nextId => simp [Sets.join, Barrier.join, h.nextId]
  case words => exact hn
  case stopped => exact h.stopped
  case alive =>
    intro w
    rw [mem_alive_join, ← h.toNat_nextId hn]
    exact mem_insert_iff h.alive
  case pending =>
    intro w
    rw [mem_pending_join]
    exact h.pending w
  case done =>
    intro w
    rw [mem_done_join]
    exact h.done w

theorem leave (h : s.Mirrors b) (v : UInt64) : (s.leave v).2.Mirrors (b.leave v.toNat).2 := by
  constructor
  case lawful => exact h.lawful.leave v
  case sound => exact h.sound.leave v.toNat
  case generation => exact h.generation
  case nextId => exact h.nextId
  case words => exact h.words
  case stopped => exact h.stopped
  case alive =>
    intro w
    rw [mem_alive_leave]
    exact mem_erase_iff h.alive
  case pending =>
    intro w
    rw [mem_pending_leave]
    exact mem_erase_iff h.pending
  case done =>
    intro w
    rw [mem_done_leave]
    exact mem_erase_iff h.done

theorem settle (h : s.Mirrors b) {v : UInt64} (hv : v ∈ s.pending) :
    (s.settle v).Mirrors (b.settleAt v.toNat) := by
  have hva : v.toNat ∈ b.alive := (h.alive v).mp (h.lawful.pending_subset hv)
  constructor
  case lawful => exact h.lawful.settle hv
  case sound => exact h.sound.settleAt v.toNat
  case generation => exact h.generation
  case nextId => exact h.nextId
  case words => exact h.words
  case stopped => exact h.stopped
  case alive =>
    intro w
    rw [mem_alive_settleAt]
    exact h.alive w
  case pending =>
    intro w
    rw [mem_pending_settleAt]
    exact mem_erase_iff h.pending
  case done =>
    intro w
    rw [mem_done_settleAt, and_iff_left hva]
    exact mem_insert_iff h.done

theorem reset (h : s.Mirrors b) (hg : b.generation + 1 < UInt64.size) :
    s.reset.2.Mirrors b.reset.2 := by
  constructor
  case lawful => exact Lawful.reset
  case sound => exact h.sound.reset
  case generation =>
    change (s.generation + 1).toNat = b.generation + 1
    rw [UInt64.toNat_add, h.generation]
    exact Nat.mod_eq_of_lt hg
  case nextId => exact h.nextId
  case words => exact h.words
  case stopped => exact h.stopped
  case alive =>
    intro w
    rw [mem_alive_reset]
    exact h.alive w
  case pending =>
    intro w
    rw [mem_pending_reset]
    exact h.alive w
  case done =>
    intro w
    simp [Sets.reset]

theorem shutdown (h : s.Mirrors b) : s.shutdown.Mirrors b.shutdown :=
  ⟨h.lawful.apply .shutdown, h.sound.apply .shutdown, h.generation, h.nextId, h.words, rfl,
    h.alive, h.pending, h.done⟩

theorem acknowledge (h : s.Mirrors b) (w g : UInt64) :
    (s.acknowledge w g).1 = (b.acknowledge w.toNat g.toNat).1 ∧
      (s.acknowledge w g).2.Mirrors (b.acknowledge w.toNat g.toNat).2 := by
  -- Both accept under one condition, so that the mixed cases below cannot be.
  have hok : (w ∈ s.pending ∧ g = s.generation) ↔
      (⟨w.toNat, .owing⟩ ∈ b.members ∧ g.toNat = b.generation) := by
    rw [← mem_pending, ← h.pending, h.eq_generation_iff]
  rcases h.sound.acknowledge_cases w.toNat g.toNat with ⟨hw, hg, he⟩ | ⟨e, he, hn⟩
  · obtain ⟨hw, hg⟩ := hok.mpr ⟨hw, hg⟩
    rcases acknowledge_cases (s := s) w g with ⟨-, -, -, hs⟩ | ⟨e, hs⟩
    · rw [hs, he]
      exact ⟨rfl, h.settle hw⟩
    · have hone := h.lawful.acknowledge_eq_ok_iff.mpr ⟨hw, hg⟩
      simp [hs] at hone
  · rcases acknowledge_cases (s := s) w g with ⟨-, hw, hg, hs⟩ | ⟨e', hs⟩
    · exact absurd (hok.mp ⟨hw, hg⟩) hn
    · have he' := (acknowledge_eq_error (by rw [hs] : (s.acknowledge w g).1 = .error e')).2
      rw [hs, he, he', h.sound.acknowledge_error he]
      refine ⟨?_, h⟩
      simp only [h.done, h.pending, h.generation]

theorem apply (h : s.Mirrors b) (hroom : Room b (op :: ops)) :
    (s.apply op).1 = (b.apply op.toOperation).1 ∧
      (s.apply op).2.Mirrors (b.apply op.toOperation).2 := by
  cases op with
  | join =>
    have hn := hroom.nextId_lt
    refine ⟨?_, h.join hn⟩
    change Outcome.joined s.nextId.toNat s.generation.toNat = .joined b.nextId b.generation
    rw [h.toNat_nextId hn, h.generation]
  | leave w =>
    refine ⟨congrArg Outcome.left ?_, h.leave w⟩
    rw [Bool.eq_iff_iff]
    simpa [Sets.leave, Barrier.leave, isAlive_iff] using h.alive w
  | acknowledge w g =>
    obtain ⟨hanswer, hafter⟩ := h.acknowledge w g
    exact ⟨congrArg Outcome.acknowledged hanswer, hafter⟩
  | reset =>
    have hafter := h.reset hroom.generation_lt
    exact ⟨congrArg Outcome.opened hafter.generation, hafter⟩
  | shutdown => exact ⟨congrArg (Outcome.stopped · true) h.stopped, h.shutdown⟩

theorem applyAll (h : s.Mirrors b) (hroom : Room b ops) :
    s.history ops = b.history (ops.map WordOperation.toOperation) ∧
      (s.applyAll ops).Mirrors (b.applyAll (ops.map WordOperation.toOperation)) := by
  induction ops generalizing s b with
  | nil => exact ⟨rfl, h⟩
  | cons op ops ih =>
    obtain ⟨hanswer, hafter⟩ := h.apply hroom
    obtain ⟨hrest, hlast⟩ := ih hafter (hroom.tail h.sound)
    refine ⟨?_, hlast⟩
    rw [Sets.history, List.map_cons, Barrier.history, hanswer, hrest]

theorem pending_eq_nil_iff (h : s.Mirrors b) : s.pending = ∅ ↔ b.pending = [] := by
  constructor
  · intro hs
    refine List.eq_nil_iff_forall_not_mem.mpr ?_
    intro v hv
    have hlt : v < UInt64.size :=
      Nat.lt_of_lt_of_le (h.sound.lt_nextId (alive_of_counted (.inl hv))) h.words
    have hword : UInt64.ofNat v ∈ s.pending := by
      rwa [h.pending, UInt64.toNat_ofNat_of_lt' hlt]
    simp [hs] at hword
  · intro hb
    refine Finset.eq_empty_of_forall_notMem ?_
    intro w hw
    rw [h.pending, hb] at hw
    cases hw

theorem isReady (h : s.Mirrors b) : s.isReady = b.isReady := by
  rw [Bool.eq_iff_iff, isReady_iff, isReady_iff_pending, h.pending_eq_nil_iff]

theorem readiness (h : s.Mirrors b) : s.readiness = b.readiness := by
  rw [Sets.readiness, Barrier.readiness, h.stopped, h.isReady, h.generation]

theorem advance (h : s.Mirrors b) (lastSeen : UInt64) :
    s.advance lastSeen = b.advance lastSeen.toNat := by
  simp only [Sets.advance, Barrier.advance, h.stopped, UInt64.lt_iff_toNat_lt, h.generation]

theorem wakes (h : s.Mirrors b) (op : WordOperation) : s.wakes op = b.wakes op.toOperation := by
  cases op with
  | acknowledge w g =>
    obtain ⟨hanswer, hafter⟩ := h.acknowledge w g
    have hready := hafter.isReady
    rcases hs : s.acknowledge w g with ⟨answer, after⟩
    rcases hb : b.acknowledge w.toNat g.toNat with ⟨_, after'⟩
    rw [hs, hb] at hanswer hready
    cases hanswer
    cases answer with
    | ok => simpa [Sets.wakes, Barrier.wakes, WordOperation.toOperation, hs, hb] using hready
    | error e => simp [Sets.wakes, Barrier.wakes, WordOperation.toOperation, hs, hb]
  | _ => rfl

end Mirrors

theorem mirrors_applyAll (ops : List WordOperation) (hj : ops.count .join < UInt64.size)
    (hr : ops.count .reset < UInt64.size) :
    history {} ops = Barrier.history {} (ops.map WordOperation.toOperation) ∧
      (applyAll {} ops).Mirrors (Barrier.applyAll {} (ops.map WordOperation.toOperation)) :=
  mirrors_empty.applyAll ⟨hj, hr⟩

end Sets

theorem applyAll_eq_history (ops : List WordOperation) (hjoins : ops.count .join < UInt64.size)
    (hresets : ops.count .reset < UInt64.size) :
    let t := Sets.history {} ops
    let s := Sets.applyAll {} ops
    s.generation.toNat = t.resets ∧
    (∀ w, w ∈ s.alive ↔ t.Alive w.toNat) ∧
    (∀ w, w ∈ s.active ↔ t.Active w.toNat) ∧
    (∀ w, w ∈ s.done ↔ t.Active w.toNat ∧ t.Settled w.toNat) ∧
    (∀ w, w ∈ s.pending ↔ t.Active w.toNat ∧ ¬ t.Settled w.toNat) ∧
    Disjoint s.pending s.done ∧
    s.pending.card + s.done.card = s.active.card ∧
    s.pending ∪ s.done = s.active ∧
    s.active ⊆ s.alive ∧
    (∀ w : UInt64, ⟨.leave w.toNat, .left true⟩ ∈ t →
      w ∉ s.alive ∧ w ∉ s.active ∧ w ∉ s.pending ∧ w ∉ s.done) ∧
    t.issued.Nodup ∧
    (∀ w g, (s.acknowledge w g).1 = .ok () ↔
      t.Active w.toNat ∧ ¬ t.Settled w.toNat ∧ g = s.generation) ∧
    (∀ w g e, (s.acknowledge w g).1 = .error e →
      (s.acknowledge w g).2 = s ∧
        e = if w ∈ s.done then .alreadyAcknowledged w.toNat s.generation.toNat
          else if w ∉ s.pending then .notActive w.toNat s.generation.toNat
          else .staleGeneration w.toNat g.toNat s.generation.toNat) ∧
    (∀ w, (s.leave w).1 = true ↔ t.Alive w.toNat) := by
  intro t s
  obtain ⟨hhistory, hmirrors⟩ := Sets.mirrors_applyAll ops hjoins hresets
  have ht : Recounts t _ := hhistory ▸ recounts_history (ops.map WordOperation.toOperation)
  have hlaws : s.Lawful := hmirrors.lawful
  have halive : ∀ w, w ∈ s.alive ↔ t.Alive w.toNat := fun w =>
    (hmirrors.alive w).trans (ht.alive _)
  have hpending : ∀ w, w ∈ s.pending ↔ t.Active w.toNat ∧ ¬ t.Settled w.toNat := fun w =>
    (hmirrors.pending w).trans (ht.pending _)
  refine ⟨hmirrors.generation.trans ht.generation, halive,
    fun w => (hmirrors.active w).trans (ht.active _),
    fun w => (hmirrors.done w).trans (ht.done _), hpending,
    hlaws.disjoint, hlaws.card, hlaws.union, hlaws.subset, ?_, ht.issued_nodup, ?_,
    fun _ _ _ he => Sets.acknowledge_eq_error he, ?_⟩
  · intro w hw
    have ha : w ∉ s.alive := fun hm => (ht.departed _ hw).2 ((hmirrors.alive w).mp hm)
    have hact : w ∉ s.active := fun hm => ha (hlaws.subset hm)
    have hboth := not_or.mp (mt hlaws.mem_active.mpr hact)
    exact ⟨ha, hact, hboth.1, hboth.2⟩
  · intro w g
    rw [hlaws.acknowledge_eq_ok_iff, hpending, and_assoc]
  · intro w
    rw [← halive]
    exact decide_eq_true_iff

def churned : List WordOperation :=
  [.join, .join, .reset, .acknowledge 1 1, .acknowledge 1 1, .leave 2, .join, .acknowledge 3 1]

theorem applyAll_eq_history_churned :
    let s := Sets.applyAll {} churned
    churned.count .join < UInt64.size ∧ churned.count .reset < UInt64.size ∧
    s.alive = {1, 3} ∧ s.pending ∪ s.done = {1} ∧
    (2 ∉ s.alive ∧ 2 ∉ s.active ∧ 2 ∉ s.pending ∧ 2 ∉ s.done) ∧
    ¬ (s.acknowledge 3 1).1 = .ok () ∧
    (Sets.history {} churned).Active 1 ∧ (Sets.history {} churned).Settled 1 := by
  intro s
  have hjoins : churned.count .join < UInt64.size := by decide
  have hresets : churned.count .reset < UInt64.size := by decide
  obtain ⟨-, -, hactive, hdone, -, -, -, hunion, -, hleft, -, hack, -⟩ :=
    applyAll_eq_history churned hjoins hresets
  have hone : s.active = {1} := by decide
  have hthree := (hactive 3).not.mp (by decide)
  have hgone : ⟨.leave 2, .left true⟩ ∈ Sets.history {} churned := List.mem_of_getElem? (i := 5) rfl
  refine ⟨hjoins, hresets, by decide, hunion.trans hone, hleft 2 hgone, ?_,
    (hdone 1).mp (by decide)⟩
  exact fun hok => hthree ((hack 3 1).mp hok).1

end SampleCast.Barrier
