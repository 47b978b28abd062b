import SampleCast.Proofs.Barrier.Mirror

/-! Waiting at a barrier.
A waiter sleeps until its line is woken or its time-out passes, and then looks at the four sets. It
is let go by what it sees there and never by what woke it, so that an operation that would let it go
has to wake its line. Main statement: `waits_end_rightly`, that exactly the operations that settle
or remove the last worker that owes, and the stop, let the producer go, exactly the opening of the
next generation and the stop let a worker go, that all of them wake the line, and that a wait, how
ever it meets with operations and time-outs, ends with what the barrier is at that moment. -/

namespace SampleCast.Barrier

variable {s : Sets} {b : Barrier} {op : WordOperation} {ops : List WordOperation}
  {w g lastSeen : UInt64}

def Readiness.Holds (s : Sets) : Readiness → Prop
  | .ready g => s.stopped = false ∧ s.pending = ∅ ∧ s.done = s.active ∧ g = s.generation.toNat
  | .stopped => s.stopped = true

def Advance.Holds (lastSeen : UInt64) (s : Sets) : Advance → Prop
  | .advanced g => s.stopped = false ∧ g = s.generation.toNat ∧ lastSeen.toNat < g
  | .timedOut => s.stopped = false ∧ s.generation ≤ lastSeen
  | .stopped => s.stopped = true

namespace Sets

/-! What a waiter is told -/

theorem readiness_eq_none_iff : s.readiness = none ↔ s.stopped = false ∧ s.pending ≠ ∅ := by
  rw [ne_eq, ← isReady_iff]
  unfold readiness
  cases s.stopped <;> cases s.isReady <;> simp

theorem advance_eq_none_iff :
    s.advance lastSeen = none ↔ s.stopped = false ∧ s.generation ≤ lastSeen := by
  unfold advance
  cases s.stopped <;> simp

theorem Lawful.done_eq_active (h : s.Lawful) (hp : s.pending = ∅) : s.done = s.active := by
  rw [← h.union, hp, Finset.empty_union]

theorem Lawful.holds_of_readiness (h : s.Lawful) {r : Readiness} (hr : s.readiness = some r) :
    r.Holds s := by
  unfold readiness at hr
  split_ifs at hr with hs hready
  · cases hr
    exact hs
  · cases hr
    have hp := isReady_iff.mp hready
    exact ⟨by simpa using hs, hp, h.done_eq_active hp, rfl⟩

theorem holds_of_advance {a : Advance} (h : s.advance lastSeen = some a) :
    a.Holds lastSeen s := by
  unfold advance at h
  split_ifs at h with hs hlt
  · cases h
    exact hs
  · cases h
    exact ⟨by simpa using hs, rfl, UInt64.lt_iff_toNat_lt.mp hlt⟩

/-! The operations that let a waiter go -/

/-- The last worker that owes settles or leaves, or the barrier is stopped. -/
def ReleasesProducer (s : Sets) : WordOperation → Prop
  | .leave w => s.pending = {w}
  | .acknowledge w g => s.pending = {w} ∧ (s.acknowledge w g).1 = .ok ()
  | .shutdown => True
  | .join | .reset => False

/-- The generation after the last one seen opens, or the barrier is stopped. After the last
generation of 64 bits comes the first one, which is not newer. -/
def ReleasesWorker (s : Sets) (lastSeen : UInt64) : WordOperation → Prop
  | .reset => lastSeen = s.generation ∧ s.generation + 1 ≠ 0
  | .shutdown => True
  | .join | .leave _ | .acknowledge _ _ => False

theorem stopped_apply (hop : op ≠ .shutdown) : (s.apply op).2.stopped = s.stopped := by
  cases op with
  | acknowledge w g =>
    rcases acknowledge_cases (s := s) w g with ⟨-, -, -, he⟩ | ⟨e, he⟩
    · simp only [apply, he, settle]
    · simp only [apply, he]
  | shutdown => exact absurd rfl hop
  | _ => rfl

theorem generation_apply (hop : op ≠ .reset) : (s.apply op).2.generation = s.generation := by
  cases op with
  | acknowledge w g =>
    rcases acknowledge_cases (s := s) w g with ⟨-, -, -, he⟩ | ⟨e, he⟩
    · simp only [apply, he, settle]
    · simp only [apply, he]
  | reset => exact absurd rfl hop
  | _ => rfl

theorem erase_pending_eq_empty_iff (hs : s.pending ≠ ∅) :
    s.pending.erase w = ∅ ↔ s.pending = {w} := by
  rw [Finset.erase_eq_empty_iff, or_iff_right hs]

theorem Lawful.pending_apply_eq_empty_iff (h : s.Lawful) (hs : s.pending ≠ ∅)
    (hop : op ≠ .shutdown) : (s.apply op).2.pending = ∅ ↔ s.ReleasesProducer op := by
  cases op with
  | join => exact iff_of_false hs id
  | leave w => exact erase_pending_eq_empty_iff hs
  | acknowledge w g =>
    rcases acknowledge_cases (s := s) w g with ⟨-, -, -, he⟩ | ⟨e, he⟩
    · simp only [Sets.apply, ReleasesProducer, he, and_true]
      exact erase_pending_eq_empty_iff hs
    · simp [Sets.apply, ReleasesProducer, he, hs]
  | reset =>
    -- Those that owe are alive, so they owe the next generation too.
    have halive : s.alive ≠ ∅ := fun he => hs (Finset.subset_empty.mp (he ▸ h.pending_subset))
    exact iff_of_false halive id
  | shutdown => exact absurd rfl hop

theorem Lawful.readiness_apply_iff (h : s.Lawful) (hs : s.readiness = none) :
    (s.apply op).2.readiness ≠ none ↔ s.ReleasesProducer op := by
  obtain ⟨hrun, howed⟩ := readiness_eq_none_iff.mp hs
  by_cases hop : op = .shutdown
  · subst hop
    simp [readiness_eq_none_iff, Sets.apply, Sets.shutdown, ReleasesProducer]
  · rw [← h.pending_apply_eq_empty_iff howed hop, ne_eq, readiness_eq_none_iff, stopped_apply hop,
      hrun]
    simp

theorem Lawful.wakes_producer (h : s.Lawful) (hs : s.readiness = none)
    (hr : s.ReleasesProducer op) : (s.wakes op).producer = true := by
  cases op with
  | acknowledge w g =>
    have hnone :=
      (h.pending_apply_eq_empty_iff (readiness_eq_none_iff.mp hs).2 (by simp)).mpr hr
    rcases acknowledge_cases (s := s) w g with ⟨-, -, -, he⟩ | ⟨e, he⟩
    · simp only [Sets.apply, he] at hnone
      simpa only [wakes, he] using isReady_iff.mpr hnone
    · have hok := hr.2
      simp [he] at hok
  | join => exact hr.elim
  | reset => exact hr.elim
  | leave w => rfl
  | shutdown => rfl

theorem lt_add_one_iff (h : g ≤ lastSeen) : lastSeen < g + 1 ↔ lastSeen = g ∧ g + 1 ≠ 0 := by
  rw [UInt64.le_iff_toNat_le] at h
  rw [UInt64.lt_iff_toNat_lt, ← UInt64.toNat_inj, ne_eq, ← UInt64.toNat_inj, UInt64.toNat_add]
  have hword := g.toNat_lt
  simp only [UInt64.toNat_one, UInt64.toNat_zero]
  omega

theorem advance_apply_iff (hs : s.advance lastSeen = none) :
    (s.apply op).2.advance lastSeen ≠ none ↔ s.ReleasesWorker lastSeen op := by
  obtain ⟨hrun, hle⟩ := advance_eq_none_iff.mp hs
  have hkept : op ≠ .shutdown → op ≠ .reset → (s.apply op).2.advance lastSeen = none := by
    intro hstop hreset
    rw [advance_eq_none_iff, stopped_apply hstop, generation_apply hreset]
    exact ⟨hrun, hle⟩
  cases op with
  | reset =>
    rw [ne_eq, advance_eq_none_iff, stopped_apply (by simp), hrun]
    simpa [apply, reset, ReleasesWorker] using lt_add_one_iff hle
  | shutdown => simp [advance_eq_none_iff, apply, shutdown, ReleasesWorker]
  | join => simp [hkept, ReleasesWorker]
  | leave w => simp [hkept, ReleasesWorker]
  | acknowledge w g => simp [hkept, ReleasesWorker]

theorem wakes_workers (h : s.ReleasesWorker lastSeen op) : (s.wakes op).workers = true := by
  cases op with
  | reset => rfl
  | shutdown => rfl
  | _ => exact h.elim

end Sets

/-! A thread that waits -/

inductive Incident
  | operation (op : WordOperation)
  | timeOut
  | look
  deriving DecidableEq

inductive Posture (α : Type)
  | asleep
  | awake (timedOut : Bool)
  | back (answer : α)
  deriving DecidableEq

def Posture.answer? {α : Type} : Posture α → Option α
  | .back r => some r
  | _ => none

structure Vigil (α : Type) where
  sets : Sets
  posture : Posture α

/-- A waiter has a line, is told something by the sets, and may have an answer for when its time-out
has passed for nothing. Without that it goes on to wait. -/
structure Watch (α : Type) where
  line : Wake → Bool
  told : Sets → Option α
  lapse : Option α

def producerWatch : Watch Readiness := ⟨Wake.producer, Sets.readiness, none⟩

def workerWatch (lastSeen : UInt64) : Watch Advance :=
  ⟨Wake.workers, fun s => s.advance lastSeen, some .timedOut⟩

def operations (incidents : List Incident) : List WordOperation :=
  incidents.filterMap fun
    | .operation op => some op
    | _ => none

def promptly (ops : List WordOperation) : List Incident :=
  .look :: ops.flatMap fun op => [.operation op, .look]

namespace Watch

variable {α : Type} {watch : Watch α} {waiter : Waiter α} {v : Vigil α} {incidents : List Incident}
  {r : α}

def Called (watch : Watch α) : Prop :=
  ∀ s op, s.Lawful → watch.told s = none → watch.told (s.apply op).2 ≠ none →
    watch.line (s.wakes op) = true

theorem called_producer : producerWatch.Called := by
  intro s op h hs ha
  exact h.wakes_producer hs ((h.readiness_apply_iff hs).mp ha)

theorem called_worker (lastSeen : UInt64) : (workerWatch lastSeen).Called := by
  intro s op _ hs ha
  exact Sets.wakes_workers ((Sets.advance_apply_iff hs).mp ha)

/-- The waiter is woken and told by the members as the thread is by the sets. -/
structure Follows (watch : Watch α) (waiter : Waiter α) : Prop where
  line : watch.line = waiter.line
  told : ∀ s b, s.Mirrors b → watch.told s = waiter.told b

theorem follows_producer : producerWatch.Follows producerWaiter :=
  ⟨rfl, fun _ _ h => h.readiness⟩

theorem follows_worker (lastSeen : UInt64) :
    (workerWatch lastSeen).Follows (workerWaiter lastSeen.toNat) :=
  ⟨rfl, fun _ _ h => h.advance lastSeen⟩

def look (watch : Watch α) (s : Sets) (timedOut : Bool) : Posture α :=
  match watch.told s with
  | some r => .back r
  | none => if timedOut then watch.lapse.elim .asleep .back else .asleep

def step (watch : Watch α) (v : Vigil α) : Incident → Vigil α
  | .operation op =>
    { sets := (v.sets.apply op).2
      posture := match v.posture with
        | .asleep => if watch.line (v.sets.wakes op) then .awake false else .asleep
        | p => p }
  | .timeOut =>
    { v with
      posture := match v.posture with
        | .asleep => .awake true
        | p => p }
  | .look =>
    { v with
      posture := match v.posture with
        | .awake timedOut => watch.look v.sets timedOut
        | p => p }

def run (watch : Watch α) (s : Sets) (incidents : List Incident) : Vigil α :=
  incidents.foldl watch.step ⟨s, .awake false⟩

theorem run_concat {i : Incident} :
    watch.run s (incidents ++ [i]) = watch.step (watch.run s incidents) i := by
  simp [run]

theorem sets_run : (watch.run s incidents).sets = s.applyAll (operations incidents) := by
  induction incidents using List.reverseRecOn with
  | nil => rfl
  | append_singleton incidents i ih =>
    rw [run_concat, operations, List.filterMap_append, ← operations]
    cases i with
    | operation op => simp [step, ih, Sets.applyAll_concat]
    | timeOut => simpa [step] using ih
    | look => simpa [step] using ih

/-- A thread sleeps only at sets that it would have to wait at. -/
structure Calm (watch : Watch α) (v : Vigil α) : Prop where
  lawful : v.sets.Lawful
  asleep : v.posture = .asleep → watch.told v.sets = none

theorem told_of_look_asleep {timedOut : Bool} (h : watch.look s timedOut = .asleep) :
    watch.told s = none := by
  unfold look at h
  split at h
  · cases h
  · assumption

theorem Calm.step (hw : watch.Called) (h : watch.Calm v) (i : Incident) :
    watch.Calm (watch.step v i) := by
  cases i with
  | operation op =>
    refine ⟨h.lawful.apply op, ?_⟩
    cases hp : v.posture with
    | asleep =>
      intro hsleep
      have hline : ¬ watch.line (v.sets.wakes op) = true := by
        intro hline
        simp [Watch.step, hp, hline] at hsleep
      by_contra hne
      exact hline (hw _ op h.lawful (h.asleep hp) hne)
    | awake timedOut => simp [Watch.step, hp]
    | back r => simp [Watch.step, hp]
  | timeOut =>
    refine ⟨h.lawful, ?_⟩
    cases hp : v.posture <;> simp [Watch.step, hp]
  | look =>
    refine ⟨h.lawful, ?_⟩
    cases hp : v.posture with
    | asleep =>
      intro _
      exact h.asleep hp
    | awake timedOut =>
      intro hsleep
      simp only [Watch.step, hp] at hsleep
      exact told_of_look_asleep hsleep
    | back r => simp [Watch.step, hp]

theorem calm_run (hw : watch.Called) (hs : s.Lawful) : watch.Calm (watch.run s incidents) := by
  induction incidents using List.reverseRecOn with
  | nil => exact ⟨hs, by simp [run]⟩
  | append_singleton incidents i ih =>
    rw [run_concat]
    exact ih.step hw i

theorem told_of_look {timedOut : Bool} (h : (watch.look s timedOut).answer? = some r) :
    watch.told s = some r ∨ watch.told s = none ∧ watch.lapse = some r := by
  unfold look at h
  cases ht : watch.told s with
  | some a =>
    rw [ht] at h
    exact .inl h
  | none =>
    refine .inr ⟨rfl, ?_⟩
    rw [ht] at h
    cases timedOut with
    | false => cases h
    | true =>
      cases hl : watch.lapse with
      | none => simp [hl, Posture.answer?] at h
      | some a =>
        rw [hl] at h
        exact h

/-- An answer is given by a look at the barrier: it is what the thread is told there, or else that
its time-out has passed. -/
theorem answer?_step {i : Incident} (hv : v.posture.answer? = none)
    (hr : (watch.step v i).posture.answer? = some r) :
    i = .look ∧
      (watch.told v.sets = some r ∨ watch.told v.sets = none ∧ watch.lapse = some r) := by
  cases hp : v.posture with
  | back a => simp [hp, Posture.answer?] at hv
  | asleep =>
    cases i with
    | operation op =>
      simp only [step, hp] at hr
      split_ifs at hr <;> cases hr
    | timeOut => simp [step, hp, Posture.answer?] at hr
    | look => simp [step, hp, Posture.answer?] at hr
  | awake timedOut =>
    cases i with
    | operation op => simp [step, hp, Posture.answer?] at hr
    | timeOut => simp [step, hp, Posture.answer?] at hr
    | look =>
      simp only [step, hp] at hr
      exact ⟨rfl, told_of_look hr⟩

theorem Calm.answers (h : watch.Calm v) (hv : v.posture.answer? = none)
    (hr : watch.told v.sets = some r) : (watch.step v .look).posture.answer? = some r := by
  cases hp : v.posture with
  | back a => simp [hp, Posture.answer?] at hv
  | asleep => simp [h.asleep hp] at hr
  | awake timedOut => simp [Watch.step, hp, look, hr, Posture.answer?]

theorem foldl_step_back :
    (incidents.foldl watch.step ⟨s, .back r⟩).posture = .back r := by
  induction incidents generalizing s with
  | nil => rfl
  | cons i incidents ih => cases i <;> exact ih

theorem look_awake : watch.look s false = ((watch.told s).map .back).getD .asleep := by
  unfold look
  cases watch.told s <;> rfl

theorem answer?_asleep (hf : watch.Follows waiter) (h : s.Mirrors b) (hroom : Sets.Room b ops) :
    ((ops.flatMap fun op => [.operation op, .look]).foldl watch.step
      ⟨s, .asleep⟩).posture.answer? = waiter.wokenBy b (ops.map WordOperation.toOperation) := by
  induction ops generalizing s b with
  | nil => rfl
  | cons op ops ih =>
    have hafter := (h.apply hroom).2
    have hrest := ih hafter (hroom.tail h.sound)
    rw [List.flatMap_cons, List.foldl_append, List.map_cons, Waiter.wokenBy, ← hf.line, ← h.wakes,
      ← hf.told _ _ hafter]
    by_cases hline : watch.line (s.wakes op) = true
    · cases ht : watch.told (s.apply op).2 with
      | some r => simp [step, hline, look_awake, ht, foldl_step_back, Posture.answer?]
      | none => simp [step, hline, look_awake, ht, hrest]
    · simp [step, hline, hrest]

/-- The waiter of a session is a thread that looks after every operation, as long as no counter
turns over. -/
theorem answer?_promptly (hf : watch.Follows waiter) (h : s.Mirrors b) (hroom : Sets.Room b ops) :
    (watch.run s (promptly ops)).posture.answer? =
      waiter.released b (ops.map WordOperation.toOperation) := by
  rw [run, promptly, List.foldl_cons, Waiter.released, ← hf.told _ _ h]
  cases ht : watch.told s with
  | some r => simp [step, look_awake, ht, foldl_step_back, Posture.answer?]
  | none => simpa [step, look_awake, ht] using answer?_asleep hf h hroom

/-- A wait from the sets `s` on, whatever happens meanwhile. The answer that the barrier is stopped
is `stop`, and an answer says of the sets what `Holds` says. -/
structure Faithful (watch : Watch α) (waiter : Waiter α) (s : Sets) (stop : α)
    (Holds : Sets → α → Prop) : Prop where
  sets : ∀ incidents, (watch.run s incidents).sets = s.applyAll (operations incidents)
  /-- No wake-up is lost. -/
  asleep : ∀ incidents, (watch.run s incidents).posture = .asleep →
    watch.told (watch.run s incidents).sets = none
  answer : ∀ incidents i r, (watch.run s incidents).posture.answer? = none →
    (watch.run s (incidents ++ [i])).posture.answer? = some r →
      i = .look ∧ Holds (watch.run s incidents).sets r
  stopped : ∀ incidents, (watch.run s incidents).posture.answer? = none →
    (watch.run s incidents).sets.stopped = true →
      (watch.run s (incidents ++ [.look])).posture.answer? = some stop
  prompt : ∀ b ops, s.Mirrors b → Sets.Room b ops →
    (watch.run s (promptly ops)).posture.answer? =
      waiter.released b (ops.map WordOperation.toOperation)

theorem faithful {stop : α} {Holds : Sets → α → Prop} (hw : watch.Called)
    (hf : watch.Follows waiter) (h : s.Lawful)
    (htold : ∀ s r, s.Lawful → watch.told s = some r → Holds s r)
    (hlapse : ∀ s r, watch.told s = none → watch.lapse = some r → Holds s r)
    (hstop : ∀ s : Sets, s.stopped = true → watch.told s = some stop) :
    watch.Faithful waiter s stop Holds := by
  constructor
  case sets => exact fun _ => sets_run
  case asleep => exact fun _ => (calm_run hw h).asleep
  case answer =>
    intro incidents i r hv hr
    rw [run_concat] at hr
    obtain ⟨hi, ht | ⟨ht, hl⟩⟩ := answer?_step hv hr
    · exact ⟨hi, htold _ r (calm_run hw h).lawful ht⟩
    · exact ⟨hi, hlapse _ r ht hl⟩
  case stopped =>
    intro incidents hv hstopped
    rw [run_concat]
    exact (calm_run hw h).answers hv (hstop _ hstopped)
  case prompt => exact fun _ _ => answer?_promptly hf

theorem faithful_producer (h : s.Lawful) :
    producerWatch.Faithful producerWaiter s .stopped Readiness.Holds := by
  refine faithful called_producer follows_producer h (fun _ _ h hr => h.holds_of_readiness hr)
    nofun ?_
  intro s hs
  exact if_pos hs

theorem faithful_worker (h : s.Lawful) (lastSeen : UInt64) :
    (workerWatch lastSeen).Faithful (workerWaiter lastSeen.toNat) s .stopped
      (Advance.Holds lastSeen) := by
  refine faithful (called_worker lastSeen) (follows_worker lastSeen) h
    (fun _ _ _ ha => Sets.holds_of_advance ha) ?_ ?_
  · intro s r ht hl
    cases hl
    exact Sets.advance_eq_none_iff.mp ht
  · intro s hs
    exact if_pos hs

end Watch

theorem waits_end_rightly (ops : List WordOperation) :
    let s := Sets.applyAll {} ops
    (∀ op, s.readiness = none →
      ((s.apply op).2.readiness ≠ none ↔ s.ReleasesProducer op) ∧
      (s.ReleasesProducer op → (s.wakes op).producer = true)) ∧
    (∀ lastSeen op, s.advance lastSeen = none →
      ((s.apply op).2.advance lastSeen ≠ none ↔ s.ReleasesWorker lastSeen op) ∧
      (s.ReleasesWorker lastSeen op → (s.wakes op).workers = true)) ∧
    producerWatch.Faithful producerWaiter s .stopped Readiness.Holds ∧
    ∀ lastSeen, (workerWatch lastSeen).Faithful (workerWaiter lastSeen.toNat) s .stopped
      (Advance.Holds lastSeen) := by
  intro s
  have h : s.Lawful := Sets.lawful_empty.applyAll ops
  refine ⟨?_, ?_, Watch.faithful_producer h, Watch.faithful_worker h⟩
  · intro op hs
    exact ⟨h.readiness_apply_iff hs, h.wakes_producer hs⟩
  · intro lastSeen op hs
    exact ⟨Sets.advance_apply_iff hs, Sets.wakes_workers⟩

def halfSettled : List WordOperation := [.join, .join, .reset, .acknowledge 1 1]

theorem waits_end_rightly_departure :
    let s := Sets.applyAll {} halfSettled
    s.readiness = none ∧ (s.apply (.leave 2)).2.readiness ≠ none ∧
    (s.wakes (.leave 2)).producer = true ∧
    producerWaiter.released (applyAll {} (halfSettled.map WordOperation.toOperation))
      [.leave 2, .reset] = some (.ready 1) ∧
    (producerWatch.run s [.look, .operation (.leave 2), .operation .reset, .look]).posture =
      .asleep ∧
    (s.applyAll [.leave 2, .reset]).readiness = none := by
  intro s
  obtain ⟨hproducer, -, hwait, -⟩ := waits_end_rightly halfSettled
  have hblocked : s.readiness = none := by decide
  obtain ⟨hfreed, hwoken⟩ := hproducer (.leave 2) hblocked
  have hlast : s.pending = {2} := by decide
  have hprompt : (producerWatch.run s (promptly [.leave 2, .reset])).posture.answer? =
      some (.ready 1) := by decide
  have hmirrors := (Sets.mirrors_applyAll halfSettled (by decide) (by decide)).2
  have hroom : Sets.Room (applyAll {} (halfSettled.map WordOperation.toOperation))
      [.leave 2, .reset] := ⟨by decide, by decide⟩
  have hsleep : (producerWatch.run s
      [.look, .operation (.leave 2), .operation .reset, .look]).posture = .asleep := by decide
  refine ⟨hblocked, hfreed.mpr hlast, hwoken hlast,
    (hwait.prompt _ _ hmirrors hroom).symm.trans hprompt, hsleep, ?_⟩
  have hnone := hwait.asleep _ hsleep
  rwa [hwait.sets] at hnone

end SampleCast.Barrier
