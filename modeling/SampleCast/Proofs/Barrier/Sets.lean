import Mathlib.Data.Finset.Card
import SampleCast.Proofs.Barrier.History

/-! A barrier as four sets.
The sets of the workers that are alive, that take part, that owe and that have settled are kept
apart, and every operation changes each of them by itself. Generations and workers are counted in
words of 64 bits, which turn over. Nothing in the data ties one set to another: that those that owe
and those that have settled are apart, that together they are those that take part, and that those
that take part are alive, is an invariant of the operations. Main statement: `Lawful.apply`. -/

namespace SampleCast.Barrier

inductive WordOperation
  | join
  | leave (worker : UInt64)
  | acknowledge (worker generation : UInt64)
  | reset
  | shutdown
  deriving DecidableEq

def WordOperation.toOperation : WordOperation → Operation
  | .join => .join
  | .leave w => .leave w.toNat
  | .acknowledge w g => .acknowledge w.toNat g.toNat
  | .reset => .reset
  | .shutdown => .shutdown

structure Sets where
  generation : UInt64 := 0
  alive : Finset UInt64 := ∅
  active : Finset UInt64 := ∅
  pending : Finset UInt64 := ∅
  done : Finset UInt64 := ∅
  nextId : UInt64 := 1
  stopped : Bool := false
  deriving DecidableEq

namespace Sets

def isReady (s : Sets) : Bool := decide (s.pending = ∅)

/-- The first two are what a debug build asserts after an operation. Of the union it compares the
sizes only. -/
structure Lawful (s : Sets) : Prop where
  disjoint : Disjoint s.pending s.done
  card : s.pending.card + s.done.card = s.active.card
  union : s.pending ∪ s.done = s.active
  subset : s.active ⊆ s.alive

def join (s : Sets) : (UInt64 × UInt64) × Sets :=
  ((s.nextId, s.generation),
    { s with alive := insert s.nextId s.alive, nextId := s.nextId + 1 })

def leave (s : Sets) (w : UInt64) : Bool × Sets :=
  (decide (w ∈ s.alive),
    { s with
      alive := s.alive.erase w
      pending := s.pending.erase w
      active := s.active.erase w
      done := s.done.erase w })

def settle (s : Sets) (w : UInt64) : Sets :=
  { s with pending := s.pending.erase w, done := insert w s.done }

def acknowledge (s : Sets) (w g : UInt64) : Except AckError Unit × Sets :=
  if w ∈ s.done then (.error (.alreadyAcknowledged w.toNat s.generation.toNat), s)
  else if w ∉ s.pending then (.error (.notActive w.toNat s.generation.toNat), s)
  else if g ≠ s.generation then
    (.error (.staleGeneration w.toNat g.toNat s.generation.toNat), s)
  else (.ok (), s.settle w)

def reset (s : Sets) : UInt64 × Sets :=
  let generation := s.generation + 1
  let active := s.alive
  (generation, { s with generation, active, pending := active, done := ∅ })

def shutdown (s : Sets) : Sets := { s with stopped := true }

def apply (s : Sets) : WordOperation → Outcome × Sets
  | .join => (.joined s.join.1.1.toNat s.join.1.2.toNat, s.join.2)
  | .leave w => (.left (s.leave w).1, (s.leave w).2)
  | .acknowledge w g => (.acknowledged (s.acknowledge w g).1, (s.acknowledge w g).2)
  | .reset => (.opened s.reset.1.toNat, s.reset.2)
  | .shutdown => (.stopped s.stopped s.shutdown.stopped, s.shutdown)

def applyAll (s : Sets) : List WordOperation → Sets
  | [] => s
  | op :: more => applyAll (s.apply op).2 more

def history (s : Sets) : List WordOperation → History
  | [] => []
  | op :: more => ⟨op.toOperation, (s.apply op).1⟩ :: history (s.apply op).2 more

/-! Waits -/

def readiness (s : Sets) : Option Readiness :=
  if s.stopped then some .stopped
  else if s.isReady then some (.ready s.generation.toNat)
  else none

def advance (s : Sets) (lastSeen : UInt64) : Option Advance :=
  if s.stopped then some .stopped
  else if lastSeen < s.generation then some (.advanced s.generation.toNat)
  else none

def wakes (s : Sets) : WordOperation → Wake
  | .join => ⟨true, false⟩
  | .leave _ => ⟨true, true⟩
  | .acknowledge w g =>
    match s.acknowledge w g with
    | (.ok _, after) => ⟨after.isReady, false⟩
    | (.error _, _) => ⟨false, false⟩
  | .reset => ⟨false, true⟩
  | .shutdown => ⟨true, true⟩

variable {s : Sets} {w g : UInt64} {op : WordOperation} {ops : List WordOperation}

@[simp] theorem isReady_iff : s.isReady = true ↔ s.pending = ∅ := by simp [isReady]

theorem applyAll_concat : s.applyAll (ops ++ [op]) = ((s.applyAll ops).apply op).2 := by
  induction ops generalizing s with
  | nil => rfl
  | cons o ops ih => exact ih

theorem acknowledge_cases (w g : UInt64) :
    (w ∉ s.done ∧ w ∈ s.pending ∧ g = s.generation ∧
      s.acknowledge w g = (.ok (), s.settle w)) ∨
    (∃ e, s.acknowledge w g = (.error e, s)) := by
  unfold acknowledge
  split_ifs with hd hp hg
  · exact .inr ⟨_, rfl⟩
  · exact .inr ⟨_, rfl⟩
  · exact .inl ⟨hd, hp, by simpa using hg, rfl⟩
  · exact .inr ⟨_, rfl⟩

/-! The laws of the sets -/

theorem lawful_of_union (hd : Disjoint s.pending s.done) (hu : s.pending ∪ s.done = s.active)
    (hs : s.active ⊆ s.alive) : s.Lawful :=
  ⟨hd, by rw [← Finset.card_union_of_disjoint hd, hu], hu, hs⟩

theorem lawful_empty : Lawful {} :=
  lawful_of_union (Finset.disjoint_empty_right _) (Finset.union_empty _) (Finset.Subset.refl _)

theorem Lawful.mem_active (h : s.Lawful) : w ∈ s.active ↔ w ∈ s.pending ∨ w ∈ s.done := by
  rw [← h.union, Finset.mem_union]

theorem Lawful.pending_subset (h : s.Lawful) : s.pending ⊆ s.alive := by
  intro w hw
  exact h.subset (h.mem_active.mpr (.inl hw))

theorem Lawful.join (h : s.Lawful) : s.join.2.Lawful :=
  lawful_of_union h.disjoint h.union (h.subset.trans (Finset.subset_insert _ _))

theorem Lawful.leave (h : s.Lawful) (w : UInt64) : (s.leave w).2.Lawful := by
  refine lawful_of_union ?_ ?_ (Finset.erase_subset_erase w h.subset)
  · exact h.disjoint.mono (Finset.erase_subset _ _) (Finset.erase_subset _ _)
  · change s.pending.erase w ∪ s.done.erase w = s.active.erase w
    rw [← Finset.erase_union_distrib, h.union]

theorem Lawful.settle (h : s.Lawful) (hw : w ∈ s.pending) : (s.settle w).Lawful := by
  refine lawful_of_union ?_ ?_ h.subset
  · change Disjoint (s.pending.erase w) (insert w s.done)
    rw [Finset.disjoint_insert_right]
    exact ⟨Finset.notMem_erase _ _, h.disjoint.mono_left (Finset.erase_subset _ _)⟩
  · change s.pending.erase w ∪ insert w s.done = s.active
    rw [Finset.union_insert, ← Finset.insert_union, Finset.insert_erase hw, h.union]

theorem Lawful.reset : s.reset.2.Lawful :=
  lawful_of_union (Finset.disjoint_empty_right _) (Finset.union_empty _) (Finset.Subset.refl _)

theorem Lawful.apply (h : s.Lawful) (op : WordOperation) : (s.apply op).2.Lawful := by
  cases op with
  | join => exact h.join
  | leave w => exact h.leave w
  | acknowledge w g =>
    rcases acknowledge_cases (s := s) w g with ⟨-, hw, -, he⟩ | ⟨e, he⟩
    · simpa only [Sets.apply, he] using h.settle hw
    · simpa only [Sets.apply, he] using h
  | reset => exact Lawful.reset
  | shutdown => exact ⟨h.disjoint, h.card, h.union, h.subset⟩

theorem Lawful.applyAll (h : s.Lawful) (ops : List WordOperation) : (s.applyAll ops).Lawful := by
  induction ops generalizing s with
  | nil => exact h
  | cons op ops ih => exact ih (h.apply op)

theorem Lawful.acknowledge_eq_ok_iff (h : s.Lawful) :
    (s.acknowledge w g).1 = .ok () ↔ w ∈ s.pending ∧ g = s.generation := by
  have hd : w ∈ s.pending → w ∉ s.done := fun hw => Finset.disjoint_left.mp h.disjoint hw
  unfold acknowledge
  split_ifs with hdone hp hg
  · simpa using fun hw => absurd hdone (hd hw)
  · simpa using fun _ => hg
  · simpa using ⟨hp, by simpa using hg⟩
  · simpa using fun hw => absurd hw hp

theorem acknowledge_eq_error {e : AckError} (he : (s.acknowledge w g).1 = .error e) :
    (s.acknowledge w g).2 = s ∧
      e = if w ∈ s.done then .alreadyAcknowledged w.toNat s.generation.toNat
        else if w ∉ s.pending then .notActive w.toNat s.generation.toNat
        else .staleGeneration w.toNat g.toNat s.generation.toNat := by
  unfold acknowledge at *
  split_ifs at * with hd hp hg
  all_goals cases he
  all_goals exact ⟨rfl, rfl⟩

end Sets
end SampleCast.Barrier
