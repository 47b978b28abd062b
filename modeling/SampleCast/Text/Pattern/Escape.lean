import SampleCast.Text.Pattern.Options

/-! Escapes in patterns.
A backslash begins an escape, which stands for a character, for a set of characters or for a
place. -/

namespace SampleCast.Pattern

inductive Escape
  | literal (c : Char)
  | byte (c : Char)
  | set (negated : Bool)
  | anchor
  | wordEdge
  deriving DecidableEq, Inhabited

def hexDigit? (c : Char) : Option Nat :=
  if c.isDigit then some (c.toNat - '0'.toNat)
  else if 'a' ≤ c ∧ c ≤ 'f' then some (c.toNat - 'a'.toNat + 10)
  else if 'A' ≤ c ∧ c ≤ 'F' then some (c.toNat - 'A'.toNat + 10)
  else none

def hexNumber? (o : Options) : Nat → Nat → List Char → Option (Nat × List Char)
  | 0, n, cs => some (n, cs)
  | digits + 1, n, cs =>
    match o.afterSpace cs with
    | [] => none
    | c :: cs => do hexNumber? o digits (n * 16 + (← hexDigit? c)) cs

def hexChar? (o : Options) (digits : Nat) (cs : List Char) : Option (Char × List Char) := do
  let (n, rest) ← hexNumber? o digits 0 cs
  if n.isValidChar then some (Char.ofNat n, rest) else none

def controls : List (Char × Char) :=
  [('a', '\x07'), ('t', '\t'), ('n', '\n'), ('v', '\x0b'), ('f', '\x0c'), ('r', '\r')]

/-- What follows a backslash. Every mark of ASCII stands for itself, the angles apart. -/
def escape? (o : Options) : List Char → Option (Escape × List Char)
  | [] => none
  | 'x' :: cs => (hexChar? o 2 cs).map fun (c, rest) => (.byte c, rest)
  | 'u' :: cs => (hexChar? o 4 cs).map fun (c, rest) => (.literal c, rest)
  | 'U' :: cs => (hexChar? o 8 cs).map fun (c, rest) => (.literal c, rest)
  | c :: cs =>
    if "dsw".toList.contains c then some (.set false, cs)
    else if "DSW".toList.contains c then some (.set true, cs)
    else if "Az".toList.contains c then some (.anchor, cs)
    else if "bB<>".toList.contains c then some (.wordEdge, cs)
    else if let some control := controls.lookup c then some (.literal control, cs)
    else if c.toNat < 128 && !c.isAlphanum then some (.literal c, cs)
    else none

/-- Whether an escape may stand outside of a class. Sets and the edges of words are known of bytes
only, and a part of a character must not match. -/
def Escape.isAllowed (o : Options) : Escape → Bool
  | .literal _ => !o.lacksCases
  | .byte c => if o.characters then !o.bothCases else c.toNat < 128
  | .set negated => !o.characters && !negated
  | .anchor => true
  | .wordEdge => !o.characters

end SampleCast.Pattern
