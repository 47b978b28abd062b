import SampleCast.Stream.Fault

/-! The reading side of a byte stream.
A stream is the list of what successive reads will meet: a chunk, of which a read takes
as much as it has room for, or a fault. An empty chunk is a read that meets the end of the stream,
and after the last item every read does.

`fill n` reads until it holds `n` bytes, trying interrupted reads again. It reports what it got,
why it stopped and what it left, and every reader of the wire format is built from it. -/

namespace SampleCast

inductive Reading
  | chunk (bytes : List UInt8)
  | fault (f : Fault)
  deriving DecidableEq, Inhabited

inductive Stop
  | full
  | ended
  | failed (f : Fault)
  deriving DecidableEq, Inhabited

structure Filled where
  bytes : List UInt8
  stop : Stop
  rest : List Reading
  deriving DecidableEq, Inhabited

namespace Reading

def bytes : List Reading → List UInt8
  | [] => []
  | .chunk b :: rest => b ++ bytes rest
  | .fault _ :: rest => bytes rest

def fill : Nat → List Reading → Filled
  | 0, s => ⟨[], .full, s⟩
  | _ + 1, [] => ⟨[], .ended, []⟩
  | n + 1, .fault f :: s => if f.isRetried then fill (n + 1) s else ⟨[], .failed f, s⟩
  | _ + 1, .chunk [] :: s => ⟨[], .ended, s⟩
  | n + 1, .chunk (b :: bs) :: s =>
    if n < bs.length then ⟨b :: bs.take n, .full, .chunk (bs.drop n) :: s⟩
    else
      let r := fill (n - bs.length) s
      ⟨b :: bs ++ r.bytes, r.stop, r.rest⟩

def exactly (n : Nat) (s : List Reading) : Except Fault (List UInt8) × List Reading :=
  let r := fill n s
  match r.stop with
  | .full => (.ok r.bytes, r.rest)
  | .ended => (.error .shortRead, r.rest)
  | .failed f => (.error f, r.rest)

/-- Exactly `n` bytes, or `none` if the stream ended before the first of them. -/
def exactlyOrEnd (n : Nat) (s : List Reading) :
    Except Fault (Option (List UInt8)) × List Reading :=
  let r := fill n s
  match r.stop with
  | .full => (.ok (some r.bytes), r.rest)
  | .ended => (if r.bytes.isEmpty then .ok none else .error .brokenMessage, r.rest)
  | .failed f => (.error f, r.rest)

theorem bytes_fill (n : Nat) (s : List Reading) :
    (fill n s).bytes ++ bytes (fill n s).rest = bytes s := by
  fun_induction fill n s with
  | case1 => rfl
  | case2 => rfl
  | case3 n f s _ ih => simpa [bytes] using ih
  | case4 => simp [bytes]
  | case5 => simp [bytes]
  | case6 n b bs s h =>
    simp only [bytes, List.cons_append, ← List.append_assoc, List.take_append_drop]
  | case7 n b bs s h r ih => simp [bytes, r, ih]

theorem length_fill_le (n : Nat) (s : List Reading) : (fill n s).bytes.length ≤ n := by
  fun_induction fill n s with
  | case6 n b bs s h =>
    simp only [List.length_cons, List.length_take]
    omega
  | case7 n b bs s h r ih =>
    simp only [List.length_cons, List.length_append, r]
    omega
  | _ => simp_all

theorem length_fill_of_full {n : Nat} {s : List Reading} (h : (fill n s).stop = .full) :
    (fill n s).bytes.length = n := by
  fun_induction fill n s with
  | case6 n b bs s h =>
    simp only [List.length_cons, List.length_take]
    omega
  | case7 n b bs s hn r ih =>
    have := ih h
    simp only [List.length_cons, List.length_append, r]
    omega
  | _ => simp_all

end Reading
end SampleCast
