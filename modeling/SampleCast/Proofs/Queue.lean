import Mathlib.Tactic.SplitIfs
import SampleCast.Queue

/-! What a queue holds.
`Holds` says where the items of a list stand in the slots of a queue: in the window, in order, with
every other slot free. The operations are then those of a list of bounded length: `push` appends,
`pop` takes from the front, and moving the window back to the front changes nothing. -/

namespace SampleCast.Queue

variable {α : Type} {q : Queue α} {items : List α} {a : α}

structure Holds (q : Queue α) (items : List α) : Prop where
  slots : q.slots = List.replicate q.start none ++ items.map some ++
    List.replicate (q.capacity - q.stop) none
  count : q.count = items.length
  fits : q.stop ≤ q.capacity

theorem holds_ofCapacity (n : Nat) : (ofCapacity n : Queue α).Holds [] :=
  ⟨by simp [ofCapacity, stop], rfl, Nat.zero_le _⟩

theorem eq_of_push_overflow {q' : Queue α} (h : q.push a = (.overflow, q')) : q' = q := by
  unfold push at h
  split_ifs at h <;> cases h <;> rfl

namespace Holds

theorem length_front (h : q.Holds items) :
    (List.replicate q.start none ++ items.map some).length = q.stop := by
  rw [List.length_append, List.length_replicate, List.length_map, stop, h.count]

theorem length_le (h : q.Holds items) : items.length ≤ q.capacity := by
  have hfits := h.fits
  rw [stop, h.count] at hfits
  omega

theorem toList (h : q.Holds items) : q.toList = items := by
  rw [Queue.toList, window, h.slots, List.append_assoc, List.drop_left' (List.length_replicate ..),
    List.take_left' (by rw [List.length_map, h.count]), List.filterMap_map]
  exact List.filterMap_some

theorem store (h : q.Holds items) (hs : q.stop < q.capacity) :
    (q.store a).Holds (items ++ [a]) := by
  have hroom : q.capacity - q.stop = (q.store a).capacity - (q.store a).stop + 1 := by
    change q.capacity - (q.start + q.count) = q.capacity - (q.start + (q.count + 1)) + 1
    rw [stop] at hs
    omega
  constructor
  case slots =>
    change q.slots.set q.stop (some a) = _
    rw [h.slots, hroom, ← h.length_front, List.set_append_right _ _ (Nat.le_refl _), Nat.sub_self,
      List.replicate_succ]
    simp [Queue.store]
  case count => simp [Queue.store, h.count]
  case fits => exact hs

theorem compact (h : q.Holds items) : q.compact.Holds items := by
  have hfits := h.fits
  have htake : q.slots.take q.stop = List.replicate q.start none ++ items.map some := by
    rw [h.slots, List.take_left' h.length_front]
  have hdrop : q.slots.drop q.stop = List.replicate (q.capacity - q.stop) none := by
    rw [h.slots, List.drop_left' h.length_front]
  have hfront : q.slots.take q.start = List.replicate q.start none := by
    rw [h.slots, List.append_assoc, List.take_left' (List.length_replicate ..)]
  have hroom : q.capacity - (0 + q.count) = q.start + (q.capacity - q.stop) := by
    rw [stop] at hfits ⊢
    omega
  constructor
  case slots =>
    change (q.slots.take q.stop).drop q.start ++ q.slots.take q.start ++ q.slots.drop q.stop =
      List.replicate 0 none ++ items.map some ++ List.replicate (q.capacity - (0 + q.count)) none
    rw [htake, hdrop, hfront, List.drop_left' (List.length_replicate ..), hroom,
      ← List.replicate_append_replicate, List.append_assoc]
    rfl
  case count => exact h.count
  case fits =>
    change 0 + q.count ≤ q.capacity
    rw [stop] at hfits
    omega

theorem push (h : q.Holds items) (a : α) :
    ((q.closed = true ∨ items.length = q.capacity) ∧ q.push a = (.overflow, q)) ∨
    (q.closed = false ∧ items.length < q.capacity ∧
      ∃ q', q.push a = (.accepted, q') ∧ q'.Holds (items ++ [a])) := by
  have hfits := h.fits
  have hle := h.length_le
  have hcount := h.count
  unfold Queue.push
  cases hc : q.closed with
  | true => exact .inl ⟨.inl rfl, rfl⟩
  | false =>
    by_cases hs : q.stop < q.capacity
    · have hlt : items.length < q.capacity := by
        rw [stop] at hs
        omega
      exact .inr ⟨rfl, hlt, _, by simp [hs], h.store hs⟩
    · by_cases h0 : q.start = 0
      · have hfull : items.length = q.capacity := by
          rw [stop] at hs hfits
          omega
        exact .inl ⟨.inr hfull, by simp [hs, h0]⟩
      · have hroom : q.compact.stop < q.compact.capacity := by
          change 0 + q.count < q.capacity
          rw [stop] at hs hfits
          omega
        have hlt : items.length < q.capacity := by
          rw [stop] at hfits
          omega
        exact .inr ⟨rfl, hlt, _, by simp [hs, h0], h.compact.store hroom⟩

theorem push_accepted {q' : Queue α} (h : q.Holds items) (hp : q.push a = (.accepted, q')) :
    q'.Holds (items ++ [a]) := by
  rcases h.push a with ⟨-, he⟩ | ⟨-, -, q₁, he, hq⟩
  · rw [he] at hp
    cases hp
  · rw [he] at hp
    cases hp
    exact hq

theorem pop_nil (h : q.Holds []) : q.pop = (none, q) := by
  have hcount : q.count = 0 := h.count
  rw [pop, if_pos hcount]

theorem pop_cons (h : q.Holds (a :: items)) :
    ∃ q', q.pop = (some a, q') ∧ q'.Holds items ∧ q'.closed = q.closed := by
  have hcount : q.count = items.length + 1 := h.count
  have hget : (q.slots[q.start]?).join = some a := by
    rw [h.slots, List.append_assoc, List.getElem?_append_right (by simp)]
    simp
  rw [pop, if_neg (by omega), hget]
  refine ⟨_, rfl, ?_, rfl⟩
  constructor
  case slots =>
    change q.slots.set q.start none = List.replicate (q.start + 1) none ++ items.map some ++
      List.replicate (q.capacity - (q.start + 1 + (q.count - 1))) none
    have hstop : q.start + 1 + (q.count - 1) = q.stop := by
      rw [stop]
      omega
    rw [hstop, h.slots, List.append_assoc, List.set_append_right _ _ (by simp)]
    simp [List.replicate_succ']
  case count =>
    change q.count - 1 = items.length
    omega
  case fits =>
    change q.start + 1 + (q.count - 1) ≤ q.capacity
    have hfits := h.fits
    rw [stop] at hfits
    omega

theorem popOrTimeOut (h : q.Holds items) :
    (items = [] ∧ q.popOrTimeOut = (if q.closed then .closed else .empty, q)) ∨
    ∃ a rest q', items = a :: rest ∧ q.popOrTimeOut = (.item a, q') ∧ q'.Holds rest := by
  unfold Queue.popOrTimeOut
  cases items with
  | nil => exact .inl ⟨rfl, by rw [h.pop_nil]⟩
  | cons a rest =>
    obtain ⟨q', hp, hq, -⟩ := h.pop_cons
    exact .inr ⟨a, rest, q', rfl, by rw [hp], hq⟩

theorem eq_of_popOrTimeOut {q' : Queue α} {p : Popped α} (h : q.Holds items)
    (hq : q.popOrTimeOut = (p, q')) (hp : ∀ a, p ≠ .item a) : q' = q := by
  rcases h.popOrTimeOut with ⟨-, he⟩ | ⟨a, rest, q₁, -, he, -⟩
  · rw [he] at hq
    exact (congrArg Prod.snd hq).symm
  · rw [he] at hq
    exact absurd (congrArg Prod.fst hq).symm (hp a)

theorem close (h : q.Holds items) : q.close.Holds items := ⟨h.slots, h.count, h.fits⟩

theorem drain (h : q.Holds items) : q.drain.1 = items.length ∧ q.drain.2.Holds [] := by
  have hlen : q.slots.length = q.capacity := by
    have hfits := h.fits
    rw [h.slots, List.length_append, h.length_front, List.length_replicate]
    omega
  exact ⟨h.count, by simp [Queue.drain, hlen, stop], rfl, Nat.zero_le _⟩

end Holds
end SampleCast.Queue
