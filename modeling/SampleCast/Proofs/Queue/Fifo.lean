import Mathlib.Data.List.Basic
import SampleCast.Proofs.Queue

/-! Queues and lists of bounded length.
`Fifo` is what a queue stands for: the queued items with the oldest first, the greatest number of
them, and whether the queue was closed. It has no slots and nothing ever moves in it. Main
statement: `run_eq_fifo`, that over any operations a queue gives the answers of the list, with its
window within the array and a compaction for no more than every item taken. -/

namespace SampleCast

structure Fifo (α : Type) where
  limit : Nat
  items : List α := []
  closed : Bool := false
  deriving DecidableEq, Inhabited

namespace Queue

inductive Operation (α : Type)
  | push (a : α)
  | pop
  | popOrTimeOut
  | popUntil (answers : List Bool)
  | close
  | drain
  deriving DecidableEq, Inhabited

inductive Answer (α : Type)
  | pushed (p : Pushed)
  | taken (a : Option α)
  | waited (p : Popped α)
  | told (p : Option (Popped α)) (questions : Nat)
  | closed
  | drained (count : Nat)
  deriving DecidableEq, Inhabited

def Answer.item? {α : Type} : Answer α → Option α
  | .taken a => a
  | .waited (.item a) | .told (some (.item a)) _ => some a
  | _ => none

def Operation.run {α σ : Type} (apply : σ → Operation α → Answer α × σ) :
    σ → List (Operation α) → List (Answer α) × σ
  | s, [] => ([], s)
  | s, op :: more =>
    let r := Operation.run apply (apply s op).2 more
    ((apply s op).1 :: r.1, r.2)

def apply {α : Type} (q : Queue α) : Operation α → Answer α × Queue α
  | .push a => (.pushed (q.push a).1, (q.push a).2)
  | .pop => (.taken q.pop.1, q.pop.2)
  | .popOrTimeOut => (.waited q.popOrTimeOut.1, q.popOrTimeOut.2)
  | .popUntil answers =>
    (.told (q.popUntil answers).1 (q.popUntil answers).2.1, (q.popUntil answers).2.2)
  | .close => (.closed, q.close)
  | .drain => (.drained q.drain.1, q.drain.2)

end Queue

namespace Fifo

variable {α : Type}

def apply (f : Fifo α) : Queue.Operation α → Queue.Answer α × Fifo α
  | .push a =>
    if f.closed = false ∧ f.items.length < f.limit then
      (.pushed .accepted, { f with items := f.items ++ [a] })
    else (.pushed .overflow, f)
  | .pop => (.taken f.items.head?, { f with items := f.items.tail })
  | .popOrTimeOut =>
    match f.items with
    | a :: rest => (.waited (.item a), { f with items := rest })
    | [] => (.waited (if f.closed then .closed else .empty), f)
  | .popUntil answers =>
    match f.items with
    | a :: rest => (.told (some (.item a)) 0, { f with items := rest })
    | [] =>
      if f.closed then (.told (some .closed) 0, f)
      else if true ∈ answers then (.told (some .closed) (answers.idxOf true + 1), f)
      else (.told none answers.length, f)
  | .close => (.closed, { f with closed := true })
  | .drain => (.drained f.items.length, { f with items := [], closed := true })

@[simp] theorem limit_apply (f : Fifo α) (op : Queue.Operation α) :
    (f.apply op).2.limit = f.limit := by
  cases op with
  | push =>
    simp only [apply]
    split_ifs <;> rfl
  | popOrTimeOut =>
    simp only [apply]
    split <;> rfl
  | popUntil =>
    simp only [apply]
    split
    · rfl
    · split_ifs <;> rfl
  | pop | close | drain => rfl

theorem limit_run (f : Fifo α) (ops : List (Queue.Operation α)) :
    (Queue.Operation.run apply f ops).2.limit = f.limit := by
  induction ops generalizing f with
  | nil => rfl
  | cons op ops ih => rw [Queue.Operation.run, ih, limit_apply]

end Fifo

namespace Queue

variable {α : Type} {q : Queue α} {items : List α} {a : α}

@[simp] theorem capacity_push : (q.push a).2.capacity = q.capacity := by
  unfold push
  split_ifs <;> rfl

@[simp] theorem closed_push : (q.push a).2.closed = q.closed := by
  unfold push
  split_ifs <;> rfl

@[simp] theorem capacity_pop : q.pop.2.capacity = q.capacity := by
  unfold pop
  split_ifs <;> rfl

@[simp] theorem closed_pop : q.pop.2.closed = q.closed := by
  unfold pop
  split_ifs <;> rfl

theorem popOrTimeOut_of_some {q' : Queue α} (h : q.pop = (some a, q')) :
    q.popOrTimeOut = (.item a, q') := by
  rw [popOrTimeOut, h]

@[simp] theorem capacity_popOrTimeOut : q.popOrTimeOut.2.capacity = q.capacity := by
  have hc := capacity_pop (q := q)
  rw [popOrTimeOut]
  rcases hp : q.pop with ⟨_ | a, q'⟩ <;> rwa [hp] at hc

@[simp] theorem closed_popOrTimeOut : q.popOrTimeOut.2.closed = q.closed := by
  have hc := closed_pop (q := q)
  rw [popOrTimeOut]
  rcases hp : q.pop with ⟨_ | a, q'⟩ <;> rwa [hp] at hc

theorem popUntil_of_some {q' : Queue α} (h : q.pop = (some a, q')) (answers : List Bool) :
    q.popUntil answers = (some (.item a), 0, q') := by
  have hp := popOrTimeOut_of_some h
  cases answers <;> simp only [popUntil, hp]

theorem popOrTimeOut_of_none (h : q.pop = (none, q)) :
    q.popOrTimeOut = (if q.closed then .closed else .empty, q) := by
  rw [popOrTimeOut, h]

theorem popUntil_of_none (h : q.pop = (none, q)) (answers : List Bool) :
    q.popUntil answers =
      if q.closed then (some .closed, 0, q)
      else if true ∈ answers then (some .closed, answers.idxOf true + 1, q)
      else (none, answers.length, q) := by
  have hp := popOrTimeOut_of_none h
  cases hc : q.closed with
  | true =>
    rw [hc] at hp
    cases answers <;> simp [popUntil, hp]
  | false =>
    rw [hc] at hp
    induction answers with
    | nil => simp [popUntil, hp]
    | cons answer answers ih =>
      cases answer with
      | true => simp [popUntil, hp]
      | false =>
        -- A question answered no is counted, and the queue is looked at again.
        simp only [popUntil, hp, ih, Bool.false_eq_true, if_false]
        by_cases ht : true ∈ answers
        · simp [ht]
        · simp [ht]

/-- The queue holds the items of the list, and is as full and as closed as it may be. -/
structure Refines (q : Queue α) (f : Fifo α) : Prop where
  holds : q.Holds f.items
  capacity : q.capacity = f.limit
  closed : q.closed = f.closed

namespace Refines

variable {f : Fifo α}

theorem push (h : q.Refines f) (a : α) :
    (q.apply (.push a)).1 = (f.apply (.push a)).1 ∧
      (q.apply (.push a)).2.Refines (f.apply (.push a)).2 := by
  rcases h.holds.push a with ⟨hfull, hp⟩ | ⟨hc, hlt, q', hp, hq⟩
  · have hno : ¬ (f.closed = false ∧ f.items.length < f.limit) := by
      rw [← h.closed, ← h.capacity]
      rcases hfull with hc | hlen
      · simp [hc]
      · omega
    simp only [apply, Fifo.apply, hp, if_neg hno]
    exact ⟨trivial, h⟩
  · have hyes : f.closed = false ∧ f.items.length < f.limit := by
      rw [← h.closed, ← h.capacity]
      exact ⟨hc, hlt⟩
    have hcap : q'.capacity = f.limit := by
      have := capacity_push (q := q) (a := a)
      rwa [hp, h.capacity] at this
    have hclosed : q'.closed = f.closed := by
      have := closed_push (q := q) (a := a)
      rwa [hp, h.closed] at this
    simp only [apply, Fifo.apply, hp, if_pos hyes]
    exact ⟨trivial, hq, hcap, hclosed⟩

theorem pop (h : q.Refines f) :
    (f.items = [] ∧ q.pop = (none, q)) ∨
    ∃ a rest q', f.items = a :: rest ∧ q.pop = (some a, q') ∧
      q'.Refines { f with items := rest } := by
  have hholds := h.holds
  cases hi : f.items with
  | nil =>
    rw [hi] at hholds
    exact .inl ⟨rfl, hholds.pop_nil⟩
  | cons a rest =>
    rw [hi] at hholds
    obtain ⟨q', hp, hq, hc⟩ := hholds.pop_cons
    have hcap : q'.capacity = f.limit := by
      have := capacity_pop (q := q)
      rwa [hp, h.capacity] at this
    exact .inr ⟨a, rest, q', rfl, hp, hq, hcap, hc.trans h.closed⟩

theorem step (h : q.Refines f) (op : Operation α) :
    (q.apply op).1 = (f.apply op).1 ∧ (q.apply op).2.Refines (f.apply op).2 := by
  cases op with
  | push a => exact h.push a
  | pop =>
    rcases h.pop with ⟨hi, hp⟩ | ⟨a, rest, q', hi, hp, hq⟩
    · simp only [apply, Fifo.apply, hp, hi]
      exact ⟨rfl, by simpa [hi] using h.holds, h.capacity, h.closed⟩
    · simp only [apply, Fifo.apply, hp, hi]
      exact ⟨rfl, hq⟩
  | popOrTimeOut =>
    rcases h.pop with ⟨hi, hp⟩ | ⟨a, rest, q', hi, hp, hq⟩
    · simp only [apply, Fifo.apply, popOrTimeOut_of_none hp, hi, h.closed]
      exact ⟨trivial, h⟩
    · simp only [apply, Fifo.apply, popOrTimeOut_of_some hp, hi]
      exact ⟨trivial, hq⟩
  | popUntil answers =>
    rcases h.pop with ⟨hi, hp⟩ | ⟨a, rest, q', hi, hp, hq⟩
    · simp only [apply, Fifo.apply, popUntil_of_none hp, hi, h.closed]
      split_ifs <;> exact ⟨rfl, h⟩
    · simp only [apply, Fifo.apply, popUntil_of_some hp, hi]
      exact ⟨trivial, hq⟩
  | close => exact ⟨rfl, h.holds.close, h.capacity, rfl⟩
  | drain =>
    obtain ⟨hcount, hq⟩ := h.holds.drain
    exact ⟨congrArg Answer.drained hcount, hq, h.capacity, rfl⟩

theorem run (h : q.Refines f) (ops : List (Operation α)) :
    (Operation.run apply q ops).1 = (Operation.run Fifo.apply f ops).1 ∧
      (Operation.run apply q ops).2.Refines (Operation.run Fifo.apply f ops).2 := by
  induction ops generalizing q f with
  | nil => exact ⟨rfl, h⟩
  | cons op ops ih =>
    obtain ⟨hanswer, hnext⟩ := h.step op
    obtain ⟨hanswers, hlast⟩ := ih hnext
    exact ⟨congrArg₂ List.cons hanswer hanswers, hlast⟩

end Refines

theorem Holds.isSome_slot_iff (h : q.Holds items) (i : Nat) :
    ((q.slots[i]?).join).isSome ↔ q.start ≤ i ∧ i < q.stop := by
  have hstop : q.stop = q.start + items.length := by rw [stop, h.count]
  by_cases hfront : i < q.start
  · have hget : q.slots[i]? = some none := by
      rw [h.slots, List.append_assoc, List.getElem?_append_left (by simpa using hfront),
        List.getElem?_replicate_of_lt hfront]
    have hout : ¬ q.start ≤ i := by omega
    simp [hget, hout]
  · by_cases hwindow : i < q.stop
    · have hlt : i - q.start < items.length := by omega
      have hget : q.slots[i]? = some (some items[i - q.start]) := by
        rw [h.slots, List.getElem?_append_left (by rw [h.length_front]; exact hwindow),
          List.getElem?_append_right (by simpa using hfront), List.length_replicate,
          List.getElem?_map, List.getElem?_eq_getElem hlt, Option.map_some]
      have hle : q.start ≤ i := by omega
      simp [hget, hle, hwindow]
    · have hget : (q.slots[i]?).join = none := by
        rw [h.slots, List.getElem?_append_right (by rw [h.length_front]; omega),
          List.getElem?_replicate]
        split <;> rfl
      simp [hget, hwindow]

theorem Holds.length_slots (h : q.Holds items) : q.slots.length = q.capacity := by
  have hfits := h.fits
  rw [h.slots, List.length_append, h.length_front, List.length_replicate]
  omega

def freed (q : Queue α) : Nat := q.start + q.compactions

theorem freed_push_le : (q.push a).2.freed ≤ q.freed := by
  unfold push
  split_ifs with hc hs h0
  · exact Nat.le_refl _
  · exact Nat.le_refl _
  · exact Nat.le_refl _
  · change 0 + (q.compactions + 1) ≤ q.start + q.compactions
    omega

theorem freed_of_pop {q' : Queue α} (h : q.pop = (some a, q')) : q'.freed = q.freed + 1 := by
  unfold pop at h
  split_ifs at h with h0
  · cases h
  · obtain ⟨-, rfl⟩ := Prod.mk.inj h
    change q.start + 1 + q.compactions = q.start + q.compactions + 1
    omega

theorem Refines.freed_apply_le {f : Fifo α} (h : q.Refines f) (op : Operation α) :
    (q.apply op).2.freed ≤ q.freed + (q.apply op).1.item?.toList.length := by
  cases op with
  | push a => exact freed_push_le
  | pop =>
    rcases h.pop with ⟨-, hp⟩ | ⟨a, rest, q', -, hp, -⟩
    · simp [apply, hp]
    · simp [apply, hp, Answer.item?, freed_of_pop hp]
  | popOrTimeOut =>
    rcases h.pop with ⟨-, hp⟩ | ⟨a, rest, q', -, hp, -⟩
    · simp [apply, popOrTimeOut_of_none hp]
    · simp [apply, popOrTimeOut_of_some hp, Answer.item?, freed_of_pop hp]
  | popUntil answers =>
    rcases h.pop with ⟨-, hp⟩ | ⟨a, rest, q', -, hp, -⟩
    · simp only [apply, popUntil_of_none hp]
      split_ifs <;> exact Nat.le_add_right ..
    · simp [apply, popUntil_of_some hp, Answer.item?, freed_of_pop hp]
  | close => exact Nat.le_refl _
  | drain =>
    change 0 + q.compactions ≤ q.start + q.compactions + 0
    omega

theorem Refines.freed_run_le {f : Fifo α} (h : q.Refines f) (ops : List (Operation α)) :
    (Operation.run apply q ops).2.freed ≤
      q.freed + ((Operation.run apply q ops).1.filterMap Answer.item?).length := by
  induction ops generalizing q f with
  | nil => exact Nat.le_refl _
  | cons op ops ih =>
    have hfirst := h.freed_apply_le op
    have hrest := ih (h.step op).2
    have htaken : ((Operation.run apply q (op :: ops)).1.filterMap Answer.item?).length =
        (q.apply op).1.item?.toList.length +
          ((Operation.run apply (q.apply op).2 ops).1.filterMap Answer.item?).length := by
      simp only [Operation.run, List.filterMap_cons]
      cases (q.apply op).1.item? with
      | none => simp
      | some a => simp [Nat.add_comm]
    rw [htaken]
    change (Operation.run apply (q.apply op).2 ops).2.freed ≤ _
    omega

/-- Over any operations a queue answers as the list of bounded length does. The list never holds
more than its limit, so that an accepted item had a free slot and the window stays in the array. -/
theorem run_eq_fifo (n : Nat) (ops : List (Operation α)) :
    let r := Operation.run apply (ofCapacity n) ops
    let s := Operation.run Fifo.apply { limit := max n 1 } ops
    let q := r.2
    r.1 = s.1 ∧
    q.toList = s.2.items ∧ q.closed = s.2.closed ∧ q.count = s.2.items.length ∧
    q.capacity = max n 1 ∧ q.slots.length = q.capacity ∧ q.start + q.count ≤ q.capacity ∧
    (∀ i, ((q.slots[i]?).join).isSome ↔ q.start ≤ i ∧ i < q.start + q.count) ∧
    q.compactions ≤ (r.1.filterMap Answer.item?).length := by
  intro r s q
  have hstart : (ofCapacity n).Refines { limit := max n 1 : Fifo α } :=
    ⟨holds_ofCapacity n, rfl, rfl⟩
  obtain ⟨hanswers, hq⟩ := hstart.run ops
  have hlimit : s.2.limit = max n 1 := Fifo.limit_run _ ops
  have hfreed : q.start + q.compactions ≤ 0 + (r.1.filterMap Answer.item?).length :=
    hstart.freed_run_le ops
  refine ⟨hanswers, hq.holds.toList, hq.closed, hq.holds.count, hq.capacity.trans hlimit,
    hq.holds.length_slots, hq.holds.fits, hq.holds.isSome_slot_iff, ?_⟩
  omega

end Queue
end SampleCast
