import Mathlib.Tactic.SplitIfs
import SampleCast.Stream.Writer

/-! What a peer has taken of the bytes sent to it.
However a peer divides the writes up, and however often it interrupts them, a sending that comes to
its end has handed over all bytes in order, and one that breaks off has handed over a proper
beginning of them. -/

namespace SampleCast

theorem Acceptance.settle_eq_more {a : Acceptance} {pending taken left : List UInt8}
    (h : a.settle pending = .more taken left) : pending = taken ++ left := by
  cases a with
  | upTo n =>
    cases n with
    | zero => cases h
    | succ n =>
      simp only [Acceptance.settle, Progress.more.injEq] at h
      rw [← h.1, ← h.2, List.take_append_drop]
  | fault f =>
    simp only [Acceptance.settle] at h
    split_ifs at h
    cases h
    rfl

/-- The sending of `bytes` came to its end, or broke off before. -/
inductive Written.Conveys (bytes : List UInt8) (w : Written) : Prop
  | whole (hf : w.fault = none) (ht : w.taken = bytes)
  | part (f : Fault) (left : List UInt8) (hf : w.fault = some f) (hl : left ≠ [])
      (ht : w.taken ++ left = bytes)

namespace Written.Conveys

variable {bytes : List UInt8} {w : Written} {f : Fault}

theorem taken_eq (h : w.Conveys bytes) (hf : w.fault = none) : w.taken = bytes := by
  cases h with
  | whole _ ht => exact ht
  | part f left hf' _ _ =>
    rw [hf] at hf'
    cases hf'

theorem taken_prefix (h : w.Conveys bytes) (hf : w.fault = some f) :
    w.taken <+: bytes ∧ w.taken ≠ bytes := by
  cases h with
  | whole hf' _ =>
    rw [hf] at hf'
    cases hf'
  | part f' left _ hl ht =>
    subst ht
    refine ⟨List.prefix_append _ _, ?_⟩
    intro he
    exact hl (List.append_cancel_left (he.symm.trans (List.append_nil _).symm))

theorem after (h : w.Conveys bytes) (taken : List UInt8) :
    Conveys (taken ++ bytes) ⟨taken ++ w.taken, w.fault, w.rest⟩ := by
  cases h with
  | whole hf ht => exact .whole hf (congrArg (taken ++ ·) ht)
  | part f left hf hl ht =>
    refine .part f left hf hl ?_
    change taken ++ w.taken ++ left = taken ++ bytes
    rw [List.append_assoc, ht]

end Written.Conveys

theorem writeAll_conveys (bytes : List UInt8) (peer : List Acceptance) :
    (writeAll bytes peer).Conveys bytes := by
  induction peer generalizing bytes with
  | nil =>
    cases bytes with
    | nil => exact .whole rfl rfl
    | cons b bs => exact .whole rfl rfl
  | cons a peer ih =>
    cases bytes with
    | nil => exact .whole rfl rfl
    | cons b bs =>
      cases ha : a.settle (b :: bs) with
      | broken f =>
        simp only [writeAll, ha]
        exact .part f (b :: bs) rfl nofun rfl
      | more taken left =>
        simp only [writeAll, ha]
        rw [Acceptance.settle_eq_more ha]
        exact (ih left).after taken

theorem writeEach_conveys (parts : List (List UInt8)) (peer : List Acceptance) :
    (writeEach parts peer).Conveys parts.flatten := by
  induction parts generalizing peer with
  | nil => exact .whole rfl rfl
  | cons bytes parts ih =>
    have hfirst := writeAll_conveys bytes peer
    cases hf : (writeAll bytes peer).fault with
    | some f =>
      simp only [writeEach, hf, List.flatten_cons]
      cases hfirst with
      | whole hn _ => simp [hf] at hn
      | part f' left hs hl ht =>
        refine .part f' (left ++ parts.flatten) hs (by simp [hl]) ?_
        rw [← List.append_assoc, ht]
    | none =>
      simp only [writeEach, hf, List.flatten_cons, hfirst.taken_eq hf]
      exact (ih _).after bytes

end SampleCast
