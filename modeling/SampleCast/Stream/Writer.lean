import SampleCast.Stream.Fault

/-! The writing side of a byte stream.
Each write meets one `Acceptance`: the peer takes at most so many bytes of it, or the write fails.
`Acceptance.settle` is what one write does to the bytes still to be sent; `writeAll` repeats it over
a list of acceptances until all is sent, and beyond that list the peer takes everything. -/

namespace SampleCast

inductive Acceptance
  | upTo (count : Nat)
  | fault (f : Fault)
  deriving DecidableEq, Inhabited

inductive Progress
  | more (taken left : List UInt8)
  | broken (f : Fault)
  deriving DecidableEq, Inhabited

def Acceptance.settle (pending : List UInt8) : Acceptance → Progress
  | .upTo 0 => .broken .shortWrite
  | .upTo (n + 1) => .more (pending.take (n + 1)) (pending.drop (n + 1))
  | .fault f => if f.isRetried then .more [] pending else .broken f

structure Written where
  taken : List UInt8
  fault : Option Fault
  rest : List Acceptance
  deriving DecidableEq, Inhabited

def writeAll : List UInt8 → List Acceptance → Written
  | [], s => ⟨[], none, s⟩
  | b :: bs, [] => ⟨b :: bs, none, []⟩
  | b :: bs, a :: s =>
    match a.settle (b :: bs) with
    | .broken f => ⟨[], some f, s⟩
    | .more taken left =>
      let r := writeAll left s
      ⟨taken ++ r.taken, r.fault, r.rest⟩
termination_by structural _ s => s

def writeEach : List (List UInt8) → List Acceptance → Written
  | [], s => ⟨[], none, s⟩
  | bytes :: more, s =>
    let first := writeAll bytes s
    match first.fault with
    | some _ => first
    | none =>
      let others := writeEach more first.rest
      ⟨first.taken ++ others.taken, others.fault, others.rest⟩

end SampleCast
