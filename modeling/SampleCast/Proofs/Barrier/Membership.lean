import Mathlib.Data.List.Nodup
import SampleCast.Barrier.Waiting

/-! The members of a barrier after each operation.
A barrier is sound if no number is carried by two members and every number in use was issued. In a
sound barrier the standing of a member is a function of its number, and what an operation does is
said by the members it leaves. Main statements: one membership law for each operation,
`acknowledge_cases`, and that every operation keeps a barrier sound. -/

namespace SampleCast.Barrier

variable {b : Barrier} {v w : WorkerId} {s : Standing} {m : Member}

structure Sound (b : Barrier) : Prop where
  nodup : (b.members.map (·.id)).Nodup
  issued : ∀ m ∈ b.members, m.id < b.nextId

/-! The four sets, seen through the members -/

theorem mem_ids {members : List Member} {p : Standing → Bool} :
    w ∈ ids members p ↔ ∃ s, p s ∧ ⟨w, s⟩ ∈ members := by
  simp only [ids, List.mem_map, List.mem_filter]
  constructor
  · intro h
    obtain ⟨m, ⟨hm, hp⟩, rfl⟩ := h
    exact ⟨m.standing, hp, hm⟩
  · intro h
    obtain ⟨s, hp, hm⟩ := h
    exact ⟨⟨w, s⟩, ⟨hm, hp⟩, rfl⟩

theorem mem_alive : w ∈ b.alive ↔ ∃ s, ⟨w, s⟩ ∈ b.members := by simp [alive, mem_ids]

theorem mem_pending : w ∈ b.pending ↔ ⟨w, .owing⟩ ∈ b.members := by simp [pending, mem_ids]

theorem mem_done : w ∈ b.done ↔ ⟨w, .settled⟩ ∈ b.members := by simp [done, mem_ids]

theorem mem_active : w ∈ b.active ↔ w ∈ b.pending ∨ w ∈ b.done := by
  rw [mem_pending, mem_done, active, mem_ids]
  constructor
  · intro h
    obtain ⟨s, hs, hm⟩ := h
    cases s with
    | fresh => simp at hs
    | owing => exact .inl hm
    | settled => exact .inr hm
  · intro h
    rcases h with hm | hm
    · exact ⟨.owing, by decide, hm⟩
    · exact ⟨.settled, by decide, hm⟩

theorem alive_of_mem (hm : ⟨w, s⟩ ∈ b.members) : w ∈ b.alive := mem_alive.mpr ⟨s, hm⟩

theorem alive_of_counted (h : w ∈ b.pending ∨ w ∈ b.done ∨ w ∈ b.active) : w ∈ b.alive := by
  rw [mem_active, mem_pending, mem_done] at h
  rcases h with h | h | h | h <;> exact alive_of_mem h

theorem isAlive_iff : b.isAlive w = true ↔ w ∈ b.alive := by
  simp only [isAlive, mem_alive, List.any_eq_true, beq_iff_eq]
  constructor
  · intro h
    obtain ⟨m, hm, rfl⟩ := h
    exact ⟨m.standing, hm⟩
  · intro h
    obtain ⟨s, hm⟩ := h
    exact ⟨_, hm, rfl⟩

theorem isReady_iff : b.isReady = true ↔ ∀ w, ⟨w, .owing⟩ ∉ b.members := by
  simp only [isReady, List.all_eq_true, bne_iff_ne, ne_eq]
  constructor
  · intro h w hm
    exact h _ hm rfl
  · intro h m hm hs
    exact h m.id (hs ▸ hm)

theorem isReady_iff_pending : b.isReady = true ↔ b.pending = [] := by
  rw [isReady_iff, List.eq_nil_iff_forall_not_mem]
  simp only [mem_pending]

/-! Soundness -/

theorem Sound.standing_unique (h : b.Sound) {s' : Standing} (hs : ⟨w, s⟩ ∈ b.members)
    (hs' : ⟨w, s'⟩ ∈ b.members) : s = s' := by
  have he := List.inj_on_of_nodup_map h.nodup hs hs' rfl
  simpa using he

theorem Sound.lt_nextId (h : b.Sound) (hw : w ∈ b.alive) : w < b.nextId := by
  obtain ⟨s, hm⟩ := mem_alive.mp hw
  exact h.issued _ hm

theorem Sound.standing?_eq_some_iff (h : b.Sound) :
    b.standing? w = some s ↔ ⟨w, s⟩ ∈ b.members := by
  simp only [standing?, Option.map_eq_some_iff]
  constructor
  · intro hs
    obtain ⟨m, hf, rfl⟩ := hs
    have hid : m.id = w := by simpa using List.find?_some hf
    subst hid
    exact List.mem_of_find?_eq_some hf
  · intro hm
    cases hf : b.members.find? (·.id == w) with
    | none =>
      have hne := List.find?_eq_none.mp hf _ hm
      simp at hne
    | some m =>
      have hid : m.id = w := by simpa using List.find?_some hf
      subst hid
      exact ⟨m, rfl, h.standing_unique (List.mem_of_find?_eq_some hf) hm⟩

/-! The members after each operation -/

theorem mem_members_join :
    m ∈ b.join.2.members ↔ m ∈ b.members ∨ m = ⟨b.nextId, .fresh⟩ := by simp [join]

theorem mem_members_leave : m ∈ (b.leave w).2.members ↔ m ∈ b.members ∧ m.id ≠ w := by
  simp [leave]

theorem mem_members_reset : ⟨v, s⟩ ∈ b.reset.2.members ↔ s = .owing ∧ v ∈ b.alive := by
  simp only [reset, List.mem_map, mem_alive]
  constructor
  · intro h
    obtain ⟨m, hm, he⟩ := h
    cases he
    exact ⟨rfl, m.standing, hm⟩
  · intro h
    obtain ⟨rfl, s, hm⟩ := h
    exact ⟨⟨v, s⟩, hm, rfl⟩

def settleAt (b : Barrier) (w : WorkerId) : Barrier :=
  { b with members := b.members.map (settle w) }

theorem id_settle : (settle w m).id = m.id := by
  unfold settle
  split_ifs <;> rfl

theorem mem_members_settleAt_self :
    ⟨w, s⟩ ∈ (b.settleAt w).members ↔ s = .settled ∧ w ∈ b.alive := by
  simp only [settleAt, List.mem_map, mem_alive]
  constructor
  · intro h
    obtain ⟨m, hm, he⟩ := h
    have hid : m.id = w := by
      rw [← id_settle (w := w), he]
    rw [settle, if_pos hid] at he
    cases he
    exact ⟨rfl, m.standing, hm⟩
  · intro h
    obtain ⟨rfl, s, hm⟩ := h
    exact ⟨⟨w, s⟩, hm, by simp [settle]⟩

theorem mem_members_settleAt_of_ne (hv : v ≠ w) :
    ⟨v, s⟩ ∈ (b.settleAt w).members ↔ ⟨v, s⟩ ∈ b.members := by
  simp only [settleAt, List.mem_map]
  constructor
  · intro h
    obtain ⟨m, hm, he⟩ := h
    have hid : m.id = v := by
      rw [← id_settle (w := w), he]
    rw [settle, if_neg (by rwa [hid])] at he
    rwa [← he]
  · intro hm
    exact ⟨_, hm, by simp [settle, hv]⟩

/-! The sets after each operation -/

@[simp] theorem mem_alive_join : w ∈ b.join.2.alive ↔ w ∈ b.alive ∨ w = b.nextId := by
  simp [mem_alive, mem_members_join, exists_or]

@[simp] theorem mem_pending_join : w ∈ b.join.2.pending ↔ w ∈ b.pending := by
  simp [mem_pending, mem_members_join]

@[simp] theorem mem_done_join : w ∈ b.join.2.done ↔ w ∈ b.done := by
  simp [mem_done, mem_members_join]

@[simp] theorem mem_alive_leave : v ∈ (b.leave w).2.alive ↔ v ∈ b.alive ∧ v ≠ w := by
  simp [mem_alive, mem_members_leave]

@[simp] theorem mem_pending_leave : v ∈ (b.leave w).2.pending ↔ v ∈ b.pending ∧ v ≠ w := by
  simp [mem_pending, mem_members_leave]

@[simp] theorem mem_done_leave : v ∈ (b.leave w).2.done ↔ v ∈ b.done ∧ v ≠ w := by
  simp [mem_done, mem_members_leave]

@[simp] theorem mem_alive_settleAt : v ∈ (b.settleAt w).alive ↔ v ∈ b.alive := by
  by_cases hv : v = w
  · subst hv
    simp [mem_alive (b := b.settleAt v), mem_members_settleAt_self]
  · simp [mem_alive, mem_members_settleAt_of_ne hv]

@[simp] theorem mem_pending_settleAt : v ∈ (b.settleAt w).pending ↔ v ∈ b.pending ∧ v ≠ w := by
  by_cases hv : v = w
  · subst hv
    simp [mem_pending, mem_members_settleAt_self]
  · simp [mem_pending, mem_members_settleAt_of_ne hv, hv]

@[simp] theorem mem_done_settleAt :
    v ∈ (b.settleAt w).done ↔ v ∈ b.done ∨ (v = w ∧ w ∈ b.alive) := by
  by_cases hv : v = w
  · subst hv
    have hd : v ∈ b.done → v ∈ b.alive := fun h => alive_of_mem (mem_done.mp h)
    simpa [mem_done (b := b.settleAt v), mem_members_settleAt_self] using hd
  · simp [mem_done, mem_members_settleAt_of_ne hv, hv]

@[simp] theorem mem_alive_reset : w ∈ b.reset.2.alive ↔ w ∈ b.alive := by
  simp [mem_alive (b := b.reset.2), mem_members_reset]

@[simp] theorem mem_pending_reset : w ∈ b.reset.2.pending ↔ w ∈ b.alive := by
  simp [mem_pending, mem_members_reset]

@[simp] theorem mem_done_reset : w ∉ b.reset.2.done := by
  simp [mem_done, mem_members_reset]

@[simp] theorem mem_alive_shutdown : w ∈ b.shutdown.alive ↔ w ∈ b.alive := Iff.rfl

@[simp] theorem mem_pending_shutdown : w ∈ b.shutdown.pending ↔ w ∈ b.pending := Iff.rfl

@[simp] theorem mem_done_shutdown : w ∈ b.shutdown.done ↔ w ∈ b.done := Iff.rfl

/-- An acknowledgment is accepted from a member that owes the open generation, and changes nothing
otherwise. -/
theorem Sound.acknowledge_cases (h : b.Sound) (w : WorkerId) (g : Nat) :
    (⟨w, .owing⟩ ∈ b.members ∧ g = b.generation ∧ b.acknowledge w g = (.ok (), b.settleAt w)) ∨
    (∃ e, b.acknowledge w g = (.error e, b) ∧ ¬ (⟨w, .owing⟩ ∈ b.members ∧ g = b.generation)) := by
  rw [← h.standing?_eq_some_iff]
  unfold acknowledge
  cases hs : b.standing? w with
  | none => exact .inr ⟨_, rfl, by simp⟩
  | some s =>
    cases s with
    | fresh => exact .inr ⟨_, rfl, by simp⟩
    | settled => exact .inr ⟨_, rfl, by simp⟩
    | owing =>
      by_cases hg : g = b.generation
      · exact .inl ⟨rfl, hg, by rw [if_pos hg, settleAt]⟩
      · exact .inr ⟨.staleGeneration w g b.generation, by rw [if_neg hg], by simp [hg]⟩

theorem Sound.acknowledge_of_pending (h : b.Sound) (hw : w ∈ b.pending) :
    b.acknowledge w b.generation = (.ok (), b.settleAt w) := by
  rcases h.acknowledge_cases w b.generation with ⟨-, -, he⟩ | ⟨e, -, hn⟩
  · exact he
  · exact absurd ⟨mem_pending.mp hw, rfl⟩ hn

theorem Sound.mem_alive_acknowledge (h : b.Sound) {g : Nat} :
    v ∈ (b.acknowledge w g).2.alive ↔ v ∈ b.alive := by
  rcases h.acknowledge_cases w g with ⟨-, -, he⟩ | ⟨e, he, -⟩
  · rw [he, mem_alive_settleAt]
  · rw [he]

theorem Sound.nextId_acknowledge (h : b.Sound) {g : Nat} :
    (b.acknowledge w g).2.nextId = b.nextId := by
  rcases h.acknowledge_cases w g with ⟨-, -, he⟩ | ⟨e, he, -⟩
  · rw [he]
    rfl
  · rw [he]

/-- The reason for a refusal: a member that has settled is told so first, then one that does not
owe, and last one that owes another generation. -/
theorem Sound.acknowledge_error (h : b.Sound) {g : Nat} {e : AckError}
    (he : b.acknowledge w g = (.error e, b)) :
    e = if w ∈ b.done then .alreadyAcknowledged w b.generation
      else if w ∉ b.pending then .notActive w b.generation
      else .staleGeneration w g b.generation := by
  simp only [mem_done, mem_pending, ← h.standing?_eq_some_iff]
  unfold acknowledge at he
  cases hs : b.standing? w with
  | none => simpa [hs, eq_comm] using he
  | some s =>
    cases s with
    | fresh => simpa [hs, eq_comm] using he
    | settled => simpa [hs, eq_comm] using he
    | owing =>
      by_cases hg : g = b.generation
      · simp [hs, hg] at he
      · simpa [hs, hg, eq_comm] using he

theorem stopped_apply (hb : b.stopped = true) (op : Operation) :
    (b.apply op).2.stopped = true := by
  cases op with
  | acknowledge w g =>
    simp only [apply, acknowledge]
    split
    · exact hb
    · split_ifs <;> exact hb
    · exact hb
  | shutdown => rfl
  | _ => exact hb

theorem sound_empty : Sound {} := ⟨by simp, by simp⟩

theorem Sound.join (h : b.Sound) : b.join.2.Sound := by
  constructor
  · have hfresh : b.nextId ∉ b.members.map (·.id) := by
      intro hm
      obtain ⟨m, hm, hid⟩ := List.mem_map.mp hm
      exact Nat.ne_of_lt (h.issued m hm) hid
    simpa [Barrier.join, List.nodup_append] using ⟨h.nodup, by simpa using hfresh⟩
  · intro m hm
    change m.id < b.nextId + 1
    rcases mem_members_join.mp hm with hm | rfl
    · exact Nat.lt_succ_of_lt (h.issued m hm)
    · exact Nat.lt_succ_self _

theorem Sound.leave (h : b.Sound) (w : WorkerId) : (b.leave w).2.Sound :=
  ⟨h.nodup.sublist (List.filter_sublist.map _),
    fun m hm => h.issued m (mem_members_leave.mp hm).1⟩

theorem Sound.settleAt (h : b.Sound) (w : WorkerId) : (b.settleAt w).Sound := by
  constructor
  · have he : (b.settleAt w).members.map (·.id) = b.members.map (·.id) := by
      simp [Barrier.settleAt, Function.comp_def, id_settle]
    rw [he]
    exact h.nodup
  · intro m hm
    obtain ⟨n, hn, rfl⟩ := List.mem_map.mp hm
    rw [id_settle]
    exact h.issued n hn

theorem Sound.reset (h : b.Sound) : b.reset.2.Sound := by
  constructor
  · have he : b.reset.2.members.map (·.id) = b.members.map (·.id) := by
      simp [Barrier.reset, Function.comp_def]
    rw [he]
    exact h.nodup
  · intro m hm
    exact h.lt_nextId (mem_members_reset.mp hm).2

theorem Sound.apply (h : b.Sound) (op : Operation) : (b.apply op).2.Sound := by
  cases op with
  | join => exact h.join
  | leave w => exact h.leave w
  | acknowledge w g =>
    rcases h.acknowledge_cases w g with ⟨-, -, he⟩ | ⟨e, he, -⟩
    · simpa only [Barrier.apply, he] using h.settleAt w
    · simpa only [Barrier.apply, he] using h
  | reset => exact h.reset
  | shutdown => exact ⟨h.nodup, h.issued⟩

theorem isReady_apply (hs : b.Sound) (hb : b.isReady = true) {op : Operation}
    (hop : op ≠ .reset) : (b.apply op).2.isReady = true := by
  rw [isReady_iff_pending, List.eq_nil_iff_forall_not_mem] at *
  intro w
  cases op with
  | join => simpa [Barrier.apply] using hb w
  | leave v => simpa [Barrier.apply] using fun h => absurd h (hb w)
  | acknowledge v g =>
    rcases hs.acknowledge_cases v g with ⟨hv, -, -⟩ | ⟨e, he, -⟩
    · exact absurd (mem_pending.mpr hv) (hb v)
    · simpa only [Barrier.apply, he] using hb w
  | reset => exact absurd rfl hop
  | shutdown => simpa [Barrier.apply] using hb w

theorem isReady_applyAll (hs : b.Sound) (hb : b.isReady = true)
    {ops : List Operation} (hops : .reset ∉ ops) : (b.applyAll ops).isReady = true := by
  induction ops generalizing b with
  | nil => exact hb
  | cons op ops ih =>
    have hop : op ≠ .reset := fun h => hops (by simp [h])
    exact ih (hs.apply op) (isReady_apply hs hb hop) (fun h => hops (by simp [h]))

theorem Sound.generation_apply (h : b.Sound) {op : Operation} (hop : op ≠ .reset) :
    (b.apply op).2.generation = b.generation := by
  cases op with
  | acknowledge w g =>
    rcases h.acknowledge_cases w g with ⟨-, -, he⟩ | ⟨e, he, -⟩
    · simp only [Barrier.apply, he]
      rfl
    · simp only [Barrier.apply, he]
  | reset => exact absurd rfl hop
  | _ => rfl

end SampleCast.Barrier
