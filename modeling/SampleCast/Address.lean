import SampleCast.Text.Parts

/-! Network addresses and their text.
A version 4 address is four decimal bytes. A version 6 address is eight groups in base sixteen; one
run of zero groups may be left out, and the last two groups may be written as a version 4 address.
The printed form leaves out the first of the longest runs of at least two zero groups. -/

namespace SampleCast

inductive Address
  | v4 (a b c d : UInt8)
  | v6 (a b c d e f g h : UInt16)
  deriving DecidableEq, Inhabited

namespace Address

def anyV4 : Address := .v4 0 0 0 0

def loopbackV4 : Address := .v4 127 0 0 1

def digit? (radix : Nat) (c : Char) : Option Nat :=
  let n :=
    if '0' ≤ c ∧ c ≤ '9' then c.toNat - '0'.toNat
    else if 'a' ≤ c ∧ c ≤ 'z' then c.toNat - 'a'.toNat + 10
    else if 'A' ≤ c ∧ c ≤ 'Z' then c.toNat - 'A'.toNat + 10
    else radix
  if n < radix then some n else none

def readDigits (radix most : Nat) (cs : List Char) : Option (List Nat × List Char) :=
  let digits := (cs.takeWhile fun c => (digit? radix c).isSome).filterMap (digit? radix)
  if digits.isEmpty ∨ most < digits.length then none
  else some (digits, cs.dropWhile fun c => (digit? radix c).isSome)

def value (radix : Nat) (digits : List Nat) : Nat := digits.foldl (fun n d => n * radix + d) 0

def readByte (cs : List Char) : Option (UInt8 × List Char) := do
  let (digits, rest) ← readDigits 10 3 cs
  if digits.head? = some 0 ∧ 1 < digits.length then none
  else if value 10 digits < 256 then some (UInt8.ofNat (value 10 digits), rest)
  else none

def readGroup (cs : List Char) : Option (UInt16 × List Char) := do
  let (digits, rest) ← readDigits 16 4 cs
  some (UInt16.ofNat (value 16 digits), rest)

def readChar (c : Char) : List Char → Option (List Char)
  | d :: rest => if c = d then some rest else none
  | [] => none

def readV4 (cs : List Char) : Option ((UInt8 × UInt8 × UInt8 × UInt8) × List Char) := do
  let (a, cs) ← readByte cs
  let (b, cs) ← readByte (← readChar '.' cs)
  let (c, cs) ← readByte (← readChar '.' cs)
  let (d, cs) ← readByte (← readChar '.' cs)
  some ((a, b, c, d), cs)

def groupOf (high low : UInt8) : UInt16 := UInt16.ofNat (high.toNat * 256 + low.toNat)

structure Groups where
  groups : List UInt16
  endsInV4 : Bool
  rest : List Char

def nextGroup (first : Bool) (cs : List Char) : Option (List Char) :=
  if first then some cs else readChar ':' cs

/-- At most `room` groups. A version 4 address counts for two. -/
def readGroups (first : Bool) : Nat → List Char → Groups
  | 0, cs => ⟨[], false, cs⟩
  | room + 1, cs =>
    let v4 := if 0 < room then (nextGroup first cs).bind readV4 else none
    match v4 with
    | some ((a, b, c, d), rest) => ⟨[groupOf a b, groupOf c d], true, rest⟩
    | none =>
      match (nextGroup first cs).bind readGroup with
      | none => ⟨[], false, cs⟩
      | some (group, rest) =>
        let more := readGroups false room rest
        ⟨group :: more.groups, more.endsInV4, more.rest⟩

def ofGroups? : List UInt16 → Option Address
  | [a, b, c, d, e, f, g, h] => some (.v6 a b c d e f g h)
  | _ => none

def readV6 (cs : List Char) : Option (Address × List Char) :=
  let head := readGroups true 8 cs
  if head.groups.length = 8 then (ofGroups? head.groups).map (·, head.rest)
  else if head.endsInV4 then none
  else do
    let rest ← readChar ':' (← readChar ':' head.rest)
    let tail := readGroups true (7 - head.groups.length) rest
    let gap := List.replicate (8 - head.groups.length - tail.groups.length) 0
    (ofGroups? (head.groups ++ gap ++ tail.groups)).map (·, tail.rest)

def read (cs : List Char) : Option (Address × List Char) :=
  match readV4 cs with
  | some ((a, b, c, d), rest) => some (.v4 a b c d, rest)
  | none => readV6 cs

def parse? (s : String) : Option Address :=
  match read s.toList with
  | some (a, []) => some a
  | _ => none

def v4Text (bytes : List UInt8) : List Char :=
  joinParts '.' (bytes.map fun b => (toString b.toNat).toList)

def v6Text (groups : List UInt16) : List Char :=
  joinParts ':' (groups.map fun g => Nat.toDigits 16 g.toNat)

structure Run where
  start : Nat
  length : Nat
  deriving DecidableEq, Inhabited

/-- The first of the longest runs of zeros. `current` is the run that ends before position `i`. -/
def longestZeroRun (i : Nat) (current longest : Run) : List UInt16 → Run
  | [] => longest
  | g :: more =>
    if g = 0 then
      let current := if current.length = 0 then ⟨i, 1⟩ else ⟨current.start, current.length + 1⟩
      longestZeroRun (i + 1) current (if longest.length < current.length then current else longest)
        more
    else longestZeroRun (i + 1) ⟨0, 0⟩ longest more

def groupsText (groups : List UInt16) : List Char :=
  let run := longestZeroRun 0 ⟨0, 0⟩ ⟨0, 0⟩ groups
  if 1 < run.length then
    v6Text (groups.take run.start) ++ [':', ':'] ++ v6Text (groups.drop (run.start + run.length))
  else v6Text groups

def chars : Address → List Char
  | .v4 a b c d => v4Text [a, b, c, d]
  | .v6 0 0 0 0 0 0xffff g h =>
    "::ffff:".toList
      ++ v4Text [UInt8.ofNat (g.toNat / 256), UInt8.ofNat (g.toNat % 256),
          UInt8.ofNat (h.toNat / 256), UInt8.ofNat (h.toNat % 256)]
  | .v6 a b c d e f g h => groupsText [a, b, c, d, e, f, g, h]

def text (a : Address) : String := String.ofList a.chars

def socketText (a : Address) (port : UInt16) : String :=
  match a with
  | .v4 .. => s!"{a.text}:{port}"
  | .v6 .. => s!"[{a.text}]:{port}"

end Address
end SampleCast
