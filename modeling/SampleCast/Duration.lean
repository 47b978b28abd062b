/-! Spans of time and their text.
A span is shown in the largest of the units second, millisecond, microsecond and nanosecond that it
reaches, with a fraction of as many digits as it needs. -/

namespace SampleCast

structure Duration where
  nanos : Nat
  deriving DecidableEq, Inhabited

namespace Duration

def ofMillis (n : Nat) : Duration := ⟨n * 1000000⟩

def ofSeconds (n : Nat) : Duration := ⟨n * 1000000000⟩

def fraction (width part : Nat) : List Char :=
  let digits := Nat.toDigits 10 part
  let padded := List.replicate (width - digits.length) '0' ++ digits
  (padded.reverse.dropWhile (· == '0')).reverse

def inUnit (nanos digits : Nat) (name : String) : String :=
  let whole := toString (nanos / Nat.pow 10 digits)
  match fraction digits (nanos % Nat.pow 10 digits) with
  | [] => whole ++ name
  | part => whole ++ "." ++ String.ofList part ++ name

def text (d : Duration) : String :=
  if 1000000000 ≤ d.nanos then inUnit d.nanos 9 "s"
  else if 1000000 ≤ d.nanos then inUnit d.nanos 6 "ms"
  else if 1000 ≤ d.nanos then inUnit d.nanos 3 "µs"
  else inUnit d.nanos 0 "ns"

end Duration
end SampleCast
