import SampleCast.Proofs.Barrier.History

/-! Pacing.
A producer that opens a generation only after it was told that no member owes keeps the members in
step with it. The generation that a worker has seen last is the one it joined in or the one it
acknowledged last. Main statement: `paced_in_step`, that in every state of such a run a member that
owes is one generation behind and every other member is not behind at all, so that each worker
acknowledges the generations after the one it joined in, one by one. -/

namespace SampleCast.Barrier

/-- Since the last reset the producer was told that no member owes. What came after it was told may
have changed the members. -/
def Told (ops : List Operation) : Prop :=
  ∃ earlier between g, ops = earlier ++ between ∧ .reset ∉ between ∧
    (applyAll {} earlier).readiness = some (.ready g)

def Paced (ops : List Operation) : Prop :=
  ∀ before after, ops = before ++ .reset :: after → Told before

def Entry.acknowledgedBy (w : WorkerId) : Entry → Option Nat
  | ⟨.acknowledge v g, .acknowledged (.ok _)⟩ => if v = w then some g else none
  | _ => none

def Entry.seenBy (w : WorkerId) : Entry → Option Nat
  | ⟨_, .joined v g⟩ => if v = w then some g else none
  | e => e.acknowledgedBy w

namespace Entry

variable {e : Entry} {w : WorkerId}

theorem acknowledgedBy_of_seenBy (h : e.seenBy w = none) : e.acknowledgedBy w = none := by
  unfold seenBy at h
  split at h
  · simp [acknowledgedBy]
  · exact h

theorem ne_joined_of_seenBy (h : e.seenBy w = none) (j : Nat) : e ≠ ⟨.join, .joined w j⟩ := by
  rintro rfl
  simp [seenBy] at h

end Entry

namespace History

def acknowledged (t : History) (w : WorkerId) : List Nat := t.filterMap (Entry.acknowledgedBy w)

def seen (t : History) (w : WorkerId) : List Nat := t.filterMap (Entry.seenBy w)

def lastSeen (t : History) (w : WorkerId) : Option Nat := (t.seen w).getLast?

variable {t : History} {e : Entry} {w : WorkerId} {j n : Nat}

theorem acknowledged_concat :
    acknowledged (t ++ [e]) w = t.acknowledged w ++ (e.acknowledgedBy w).toList := by
  cases h : e.acknowledgedBy w <;> simp [acknowledged, h]

theorem seen_concat : seen (t ++ [e]) w = t.seen w ++ (e.seenBy w).toList := by
  cases h : e.seenBy w <;> simp [seen, h]

theorem lastSeen_of_seen (h : t.seen w = List.range' j (n + 1)) : t.lastSeen w = some (j + n) := by
  rw [lastSeen, h, List.range'_1_concat, List.getLast?_concat]

end History

theorem paced_concat {ops : List Operation} {op : Operation} :
    Paced (ops ++ [op]) ↔ Paced ops ∧ (op = .reset → Told ops) := by
  constructor
  · intro h
    constructor
    · intro before after he
      exact h before (after ++ [op]) (by simp [he])
    · intro hop
      exact h ops [] (by rw [hop])
  · intro h before after he
    rcases History.eq_of_concat_eq he with ⟨rfl, hop, -⟩ | ⟨rest, -, hops⟩
    · exact h.2 hop.symm
    · exact h.1 before rest hops

theorem paced_of_not_mem {ops : List Operation} (h : .reset ∉ ops) : Paced ops := by
  intro before after he
  exact absurd (by simp [he]) h

theorem Paced.round {ops more : List Operation} (h : Paced ops) (ht : Told ops)
    (hm : .reset ∉ more) : Paced (ops ++ .reset :: more) := by
  induction more using List.reverseRecOn with
  | nil => exact paced_concat.mpr ⟨h, fun _ => ht⟩
  | append_singleton more op ih =>
    rw [List.mem_append, not_or] at hm
    rw [← List.cons_append, ← List.append_assoc]
    exact paced_concat.mpr ⟨ih hm.1, fun ho => absurd (by simp [ho]) hm.2⟩

theorem isReady_of_readiness {b : Barrier} {g : Nat} (h : b.readiness = some (.ready g)) :
    b.isReady = true := by
  unfold readiness at h
  by_cases hs : b.stopped
  · simp [hs] at h
  · by_cases hr : b.isReady
    · exact hr
    · simp [hs, hr] at h

theorem stopped_eq_false_of_readiness {b : Barrier} {g : Nat}
    (h : b.readiness = some (.ready g)) : b.stopped = false := by
  unfold readiness at h
  cases hs : b.stopped with
  | false => rfl
  | true => simp [hs] at h

theorem stopped_of_readiness {b : Barrier} (h : b.readiness = some .stopped) :
    b.stopped = true := by
  unfold readiness at h
  by_cases hs : b.stopped
  · exact hs
  · by_cases hr : b.isReady
    · simp [hs, hr] at h
    · simp [hs, hr] at h

theorem isReady_of_told {ops : List Operation} (h : Told ops) :
    (applyAll {} ops).isReady = true := by
  obtain ⟨earlier, between, g, rfl, hb, hr⟩ := h
  rw [applyAll_append]
  exact isReady_applyAll (recounts_history earlier).sound (isReady_of_readiness hr) hb

/-- What ties a barrier to its history while the producer keeps the pace. -/
structure InStep (t : History) (b : Barrier) : Prop where
  sound : b.Sound
  owing : ∀ w, ⟨w, .owing⟩ ∈ b.members → ∃ l, t.lastSeen w = some l ∧ l + 1 = b.generation
  other : ∀ w s, s ≠ .owing → ⟨w, s⟩ ∈ b.members → t.lastSeen w = some b.generation
  consecutive : ∀ w, t.seen w = [] ∧ t.acknowledged w = [] ∨
    ∃ j n, ⟨.join, .joined w j⟩ ∈ t ∧
      t.seen w = List.range' j (n + 1) ∧ t.acknowledged w = List.range' (j + 1) n
  joined : ∀ w j, ⟨.join, .joined w j⟩ ∈ t → w < b.nextId ∧ (t.seen w).head? = some j
  unseen : ∀ w, b.nextId ≤ w → t.seen w = []

namespace InStep

variable {t : History} {b : Barrier} {e : Entry}

theorem empty : InStep [] {} :=
  ⟨sound_empty, by simp, by simp, fun _ => .inl ⟨rfl, rfl⟩, by simp, fun _ _ => rfl⟩

theorem quiet (h : InStep t b) {after : Barrier} (he : ∀ w, e.seenBy w = none)
    (hs : after.Sound) (hn : after.nextId = b.nextId)
    (howing : ∀ w, ⟨w, .owing⟩ ∈ after.members →
      ∃ l, t.lastSeen w = some l ∧ l + 1 = after.generation)
    (hother : ∀ w s, s ≠ .owing → ⟨w, s⟩ ∈ after.members →
      t.lastSeen w = some after.generation) :
    InStep (t ++ [e]) after := by
  have hseen : ∀ w, History.seen (t ++ [e]) w = t.seen w := by
    intro w
    rw [History.seen_concat, he w, Option.toList_none, List.append_nil]
  have hacked : ∀ w, History.acknowledged (t ++ [e]) w = t.acknowledged w := by
    intro w
    rw [History.acknowledged_concat, Entry.acknowledgedBy_of_seenBy (he w), Option.toList_none,
      List.append_nil]
  constructor
  case sound => exact hs
  case owing =>
    intro w hw
    rw [History.lastSeen, hseen]
    exact howing w hw
  case other =>
    intro w s ho hw
    rw [History.lastSeen, hseen]
    exact hother w s ho hw
  case consecutive =>
    intro w
    rw [hseen, hacked]
    rcases h.consecutive w with hc | ⟨j, n, hj, hc⟩
    · exact .inl hc
    · exact .inr ⟨j, n, List.mem_append_left _ hj, hc⟩
  case joined =>
    intro w j hw
    rw [hseen, hn]
    rcases List.mem_append.mp hw with hw | hw
    · exact h.joined w j hw
    · exact absurd (List.mem_singleton.mp hw).symm (Entry.ne_joined_of_seenBy (he w) j)
  case unseen =>
    intro w hw
    rw [hseen]
    exact h.unseen w (hn ▸ hw)

theorem keep (h : InStep t b) {after : Barrier} (he : ∀ w, e.seenBy w = none)
    (hs : after.Sound) (hn : after.nextId = b.nextId) (hg : after.generation = b.generation)
    (hm : ∀ m ∈ after.members, m ∈ b.members) : InStep (t ++ [e]) after := by
  refine h.quiet he hs hn ?_ ?_
  · intro w hw
    rw [hg]
    exact h.owing w (hm _ hw)
  · intro w s ho hw
    rw [hg]
    exact h.other w s ho (hm _ hw)

theorem join (h : InStep t b) :
    InStep (t ++ [⟨.join, .joined b.nextId b.generation⟩]) b.join.2 := by
  have hnew : t.seen b.nextId = [] := h.unseen b.nextId (Nat.le_refl _)
  have hnone : t.acknowledged b.nextId = [] := by
    rcases h.consecutive b.nextId with hc | ⟨j, n, -, hc, -⟩
    · exact hc.2
    · simp [hnew] at hc
  have hseen : ∀ w, History.seen (t ++ [⟨.join, .joined b.nextId b.generation⟩]) w =
      if b.nextId = w then [b.generation] else t.seen w := by
    intro w
    rw [History.seen_concat, Entry.seenBy]
    split_ifs with hw
    · simp [← hw, hnew]
    · simp
  have hacked : ∀ w, History.acknowledged (t ++ [⟨.join, .joined b.nextId b.generation⟩]) w =
      t.acknowledged w := by
    intro w
    rw [History.acknowledged_concat]
    simp [Entry.acknowledgedBy]
  have hold : ∀ w s, ⟨w, s⟩ ∈ b.members → b.nextId ≠ w := by
    intro w s hm
    exact Ne.symm (Nat.ne_of_lt (h.sound.issued _ hm))
  constructor
  case sound => exact h.sound.join
  case owing =>
    intro w hw
    rcases mem_members_join.mp hw with hw | hw
    · rw [History.lastSeen, hseen, if_neg (hold w _ hw)]
      exact h.owing w hw
    · simp at hw
  case other =>
    intro w s ho hw
    rw [History.lastSeen, hseen]
    rcases mem_members_join.mp hw with hw | hw
    · rw [if_neg (hold w s hw)]
      exact h.other w s ho hw
    · obtain ⟨rfl, -⟩ := Member.mk.inj hw
      rw [if_pos rfl]
      rfl
  case consecutive =>
    intro w
    rw [hseen, hacked]
    split_ifs with hw
    · subst hw
      exact .inr ⟨b.generation, 0, by simp, rfl, hnone⟩
    · rcases h.consecutive w with hc | ⟨j, n, hj, hc⟩
      · exact .inl hc
      · exact .inr ⟨j, n, List.mem_append_left _ hj, hc⟩
  case joined =>
    intro w j hw
    rw [hseen]
    rcases List.mem_append.mp hw with hw | hw
    · obtain ⟨hlt, hj⟩ := h.joined w j hw
      rw [if_neg (Ne.symm (Nat.ne_of_lt hlt))]
      exact ⟨Nat.lt_succ_of_lt hlt, hj⟩
    · have he : w = b.nextId ∧ j = b.generation := by simpa using hw
      obtain ⟨rfl, rfl⟩ := he
      exact ⟨Nat.lt_succ_self _, by simp⟩
  case unseen =>
    intro w hw
    have hlt : b.nextId < w := hw
    rw [hseen, if_neg (Nat.ne_of_lt hlt)]
    exact h.unseen w (Nat.le_of_lt hlt)

theorem settle (h : InStep t b) {v : WorkerId} (hv : ⟨v, .owing⟩ ∈ b.members) :
    InStep (t ++ [⟨.acknowledge v b.generation, .acknowledged (.ok ())⟩]) (b.settleAt v) := by
  obtain ⟨l, hl, hlg⟩ := h.owing v hv
  have hseen : ∀ w, History.seen
      (t ++ [⟨.acknowledge v b.generation, .acknowledged (.ok ())⟩]) w =
      if v = w then t.seen w ++ [b.generation] else t.seen w := by
    intro w
    rw [History.seen_concat, Entry.seenBy, Entry.acknowledgedBy]
    · split_ifs <;> simp
    · simp
  have hacked : ∀ w, History.acknowledged
      (t ++ [⟨.acknowledge v b.generation, .acknowledged (.ok ())⟩]) w =
      if v = w then t.acknowledged w ++ [b.generation] else t.acknowledged w := by
    intro w
    rw [History.acknowledged_concat, Entry.acknowledgedBy]
    split_ifs <;> simp
  have hkept : ∀ w s, v ≠ w → ⟨w, s⟩ ∈ (b.settleAt v).members → ⟨w, s⟩ ∈ b.members := by
    intro w s hw hm
    exact (mem_members_settleAt_of_ne (Ne.symm hw)).mp hm
  constructor
  case sound => exact h.sound.settleAt v
  case owing =>
    intro w hw
    by_cases hvw : v = w
    · subst hvw
      have hst := (mem_members_settleAt_self.mp hw).1
      cases hst
    · rw [History.lastSeen, hseen, if_neg hvw]
      exact h.owing w (hkept w _ hvw hw)
  case other =>
    intro w s ho hw
    rw [History.lastSeen, hseen]
    by_cases hvw : v = w
    · rw [if_pos hvw, List.getLast?_concat]
      rfl
    · rw [if_neg hvw]
      exact h.other w s ho (hkept w s hvw hw)
  case consecutive =>
    intro w
    rw [hseen, hacked]
    split_ifs with hvw
    · subst hvw
      right
      rcases h.consecutive v with hc | ⟨j, n, hj, hs, ha⟩
      · simp [History.lastSeen, hc.1] at hl
      · have hjn : j + n = l := by
          rw [History.lastSeen_of_seen hs] at hl
          exact Option.some.inj hl
        refine ⟨j, n + 1, List.mem_append_left _ hj, ?_, ?_⟩
        · rw [hs, List.range'_1_concat (n := n + 1), ← hlg, ← hjn, Nat.add_assoc]
        · rw [ha, List.range'_1_concat, ← hlg, ← hjn, Nat.add_right_comm]
    · rcases h.consecutive w with hc | ⟨j, n, hj, hc⟩
      · exact .inl hc
      · exact .inr ⟨j, n, List.mem_append_left _ hj, hc⟩
  case joined =>
    intro w j hw
    obtain ⟨hlt, hj⟩ := h.joined w j (by simpa using hw)
    refine ⟨hlt, ?_⟩
    rw [hseen]
    split_ifs with hvw
    · rw [List.head?_append, hj, Option.some_or]
    · exact hj
  case unseen =>
    intro w hw
    have hvw : v ≠ w := Nat.ne_of_lt (Nat.lt_of_lt_of_le (h.sound.issued _ hv) hw)
    rw [hseen, if_neg hvw]
    exact h.unseen w hw

theorem reset (h : InStep t b) (hb : b.isReady = true) :
    InStep (t ++ [⟨.reset, .opened (b.generation + 1)⟩]) b.reset.2 := by
  refine h.quiet (fun _ => rfl) h.sound.reset rfl ?_ ?_
  · intro w hw
    obtain ⟨s, hs⟩ := mem_alive.mp (mem_members_reset.mp hw).2
    have ho : s ≠ .owing := by
      intro he
      exact isReady_iff.mp hb w (he ▸ hs)
    exact ⟨b.generation, h.other w s ho hs, rfl⟩
  · intro w s ho hw
    exact absurd (mem_members_reset.mp hw).1 ho

theorem step (h : InStep t b) (op : Operation) (hop : op = .reset → b.isReady = true) :
    InStep (t ++ [⟨op, (b.apply op).1⟩]) (b.apply op).2 := by
  cases op with
  | join => exact h.join
  | leave w =>
    exact h.keep (fun _ => rfl) (h.sound.leave w) rfl rfl fun _ hm => (mem_members_leave.mp hm).1
  | acknowledge w g =>
    rcases h.sound.acknowledge_cases w g with ⟨hw, rfl, he⟩ | ⟨e, he, -⟩
    · simpa only [Barrier.apply, he] using h.settle hw
    · simp only [Barrier.apply, he]
      exact h.keep (fun _ => rfl) h.sound rfl rfl fun _ => id
  | reset => exact h.reset (hop rfl)
  | shutdown =>
    exact h.keep (fun _ => rfl) (h.sound.apply .shutdown) rfl rfl fun _ => id

end InStep

theorem inStep_of_paced {ops : List Operation} (h : Paced ops) :
    InStep (history {} ops) (applyAll {} ops) := by
  induction ops using List.reverseRecOn with
  | nil => exact InStep.empty
  | append_singleton ops op ih =>
    obtain ⟨hops, hop⟩ := paced_concat.mp h
    rw [history_concat, applyAll_concat]
    exact (ih hops).step op (fun ho => isReady_of_told (hop ho))

namespace InStep

variable {t : History} {b : Barrier} {w : WorkerId}

theorem lastSeen_of_alive (h : InStep t b) (hw : w ∈ b.alive) :
    ∃ l, t.lastSeen w = some l ∧
      (if w ∈ b.pending then l + 1 = b.generation else l = b.generation) := by
  by_cases hp : w ∈ b.pending
  · obtain ⟨l, hl, hg⟩ := h.owing w (mem_pending.mp hp)
    exact ⟨l, hl, by rwa [if_pos hp]⟩
  · obtain ⟨s, hs⟩ := mem_alive.mp hw
    have ho : s ≠ .owing := by
      intro he
      exact hp (mem_pending.mpr (he ▸ hs))
    exact ⟨b.generation, h.other w s ho hs, by rw [if_neg hp]⟩

theorem acknowledged_eq (h : InStep t b) {j : Nat} (hj : ⟨.join, .joined w j⟩ ∈ t) :
    t.acknowledged w = List.range' (j + 1) (t.acknowledged w).length := by
  have hhead := (h.joined w j hj).2
  rcases h.consecutive w with hc | ⟨i, n, -, hs, ha⟩
  · simp [hc.1] at hhead
  · have hij : i = j := by simpa [hs, List.range'_succ] using hhead
    rw [ha, List.length_range', hij]

theorem acknowledged_eq_nil (h : InStep t b) (hw : ∀ j, ⟨.join, .joined w j⟩ ∉ t) :
    t.acknowledged w = [] := by
  rcases h.consecutive w with hc | ⟨j, n, hj, -⟩
  · exact hc.2
  · exact absurd hj (hw j)

end InStep

theorem advance_eq_succ {b : Barrier} {l g : Nat} (hl : l + 1 = b.generation ∨ l = b.generation)
    (hg : b.advanceOrTimeOut l = .advanced g) : g = l + 1 := by
  unfold advanceOrTimeOut advance at hg
  by_cases hs : b.stopped
  · simp [hs] at hg
  · by_cases hlt : l < b.generation
    · have he : b.generation = g := by simpa [hs, hlt] using hg
      omega
    · simp [hs, hlt] at hg

theorem paced_in_step (ops : List Operation) (h : Paced ops) :
    let t := history {} ops
    let b := applyAll {} ops
    (∀ w ∈ b.alive, ∃ l, t.lastSeen w = some l ∧
      (if w ∈ b.pending then l + 1 = b.generation else l = b.generation) ∧
      ∀ g, b.advanceOrTimeOut l = .advanced g → g = l + 1) ∧
    (∀ w j, ⟨.join, .joined w j⟩ ∈ t →
      t.acknowledged w = List.range' (j + 1) (t.acknowledged w).length) ∧
    (∀ w, (∀ j, ⟨.join, .joined w j⟩ ∉ t) → t.acknowledged w = []) ∧
    (∀ before after, ops = before ++ .reset :: after → (applyAll {} before).pending = []) := by
  intro t b
  have hin : InStep t b := inStep_of_paced h
  refine ⟨?_, fun _ _ => hin.acknowledged_eq, fun _ => hin.acknowledged_eq_nil, ?_⟩
  · intro w hw
    obtain ⟨l, hl, hg⟩ := hin.lastSeen_of_alive hw
    refine ⟨l, hl, hg, ?_⟩
    intro g ha
    refine advance_eq_succ ?_ ha
    split_ifs at hg with hp
    · exact .inl hg
    · exact .inr hg
  · intro before after he
    exact isReady_iff_pending.mp (isReady_of_told (h before after he))

def churn : List Operation :=
  [.join, .join] ++ .reset :: [.acknowledge 1 1, .acknowledge 7 1, .leave 2, .join] ++
    .reset :: [.acknowledge 1 2, .acknowledge 3 1]

theorem paced_churn : Paced churn := by
  have hfirst : Told [.join, .join] := ⟨[.join, .join], [], 0, rfl, by decide, rfl⟩
  have hsecond :
      Told ([.join, .join] ++ .reset :: [.acknowledge 1 1, .acknowledge 7 1, .leave 2, .join]) :=
    ⟨[.join, .join, .reset, .acknowledge 1 1, .acknowledge 7 1, .leave 2], [.join], 1, rfl,
      by decide, rfl⟩
  exact ((paced_of_not_mem (by decide)).round hfirst (by decide)).round hsecond (by decide)

theorem paced_in_step_churn :
    Paced churn ∧ (history {} churn).acknowledged 1 = [1, 2] ∧
      ∃ l, (history {} churn).lastSeen 3 = some l ∧ l + 1 = 2 := by
  have h := paced_in_step churn paced_churn
  refine ⟨paced_churn, h.2.1 1 0 (List.mem_cons_self ..), ?_⟩
  obtain ⟨l, hl, hg, -⟩ := h.1 3 (by decide)
  exact ⟨l, hl, hg⟩

end SampleCast.Barrier
