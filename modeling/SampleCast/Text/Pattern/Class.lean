import SampleCast.Text.Pattern.Escape

/-! Classes, which are sets of characters in brackets.
A class lists its items and may hold other classes. Two equal marks between items are an operation
on all that stands to the left of them and on the items to the right. A class of bytes has ASCII
characters only, so it cannot be negated. -/

namespace SampleCast.Pattern

def classNames : List String :=
  ["alnum", "alpha", "ascii", "blank", "cntrl", "digit", "graph", "lower", "print", "punct",
    "space", "upper", "word", "xdigit"]

def named? : List Char → Option (Bool × List Char)
  | ':' :: cs =>
    let negated := cs.head? = some '^'
    let cs := if negated then cs.tail else cs
    let name := cs.takeWhile (· != ':')
    match cs.drop name.length with
    | ':' :: ']' :: rest =>
      if classNames.contains (String.ofList name) then some (negated, rest) else none
    | _ => none
  | _ => none

namespace Options

def allowsItem (o : Options) (c : Char) : Bool :=
  if o.characters then !o.bothCases else c.toNat < 128

def allowsNamed (o : Options) (negated : Bool) : Bool :=
  if o.characters then !o.bothCases else !negated

end Options

def item? (o : Options) : List Char → Option (Option Char × List Char)
  | [] => none
  | '\\' :: cs =>
    match escape? o cs with
    | some (.literal c, rest) | some (.byte c, rest) =>
      if o.allowsItem c then some (some c, rest) else none
    | some (.set negated, rest) => if o.characters || negated then none else some (none, rest)
    | _ => none
  | c :: cs => if o.allowsItem c then some (some c, cs) else none

def range? (o : Options) (cs : List Char) : Option (List Char) := do
  let (low, rest) ← item? o cs
  match o.afterSpace rest with
  | '-' :: after =>
    if (o.afterDash? after).any "]-".toList.contains then some ('-' :: after)
    else
      let (high, rest) ← item? o (o.afterSpace after)
      if (← low) ≤ (← high) then some rest else none
  | rest => some rest

structure OpenClass where
  atStart : Bool := true
  left : Option Nat := none
  items : List Nat := []
  deriving DecidableEq, Inhabited

namespace OpenClass

def add (k : OpenClass) (depth : Nat) : OpenClass :=
  { k with atStart := false, items := depth :: k.items }

def inner (k : OpenClass) : Nat :=
  match k.left with
  | none => listDepth k.items
  | some left => max left (listDepth k.items) + 1

def depth (k : OpenClass) : Nat := k.inner + 1

def operate (k : OpenClass) : OpenClass := { atStart := false, left := some k.inner }

/-- At the start of a class dashes stand for themselves, and so does a bracket that comes first. -/
def startsWith (k : OpenClass) (c : Char) : Bool :=
  k.atStart && (c == '-' || (c == ']' && k.items.isEmpty))

end OpenClass

def opened? (o : Options) (cs : List Char) : Option (List Char) :=
  match o.afterSpace cs with
  | '^' :: rest => if o.characters then some rest else none
  | rest => some rest

/-- The depth of a class and the rest after it. Inside of the classes in `outer`, the class `k` is
open. The fuel is more than the length of the text. -/
def closed? (o : Options) : Nat → OpenClass → List OpenClass → List Char → Option (Nat × List Char)
  | 0, _, _, _ => none
  | fuel + 1, k, outer, cs =>
    match o.afterSpace cs with
    | [] => none
    | c :: cs =>
      if k.startsWith c then
        if o.allowsItem c then closed? o fuel { k.add 0 with atStart := c == '-' } outer cs
        else none
      else if c = ']' then
        match outer with
        | [] => some (k.depth, cs)
        | k' :: outer => closed? o fuel (k'.add k.depth) outer cs
      else if c = '[' then
        match named? cs with
        | some (negated, rest) =>
          if o.allowsNamed negated then closed? o fuel (k.add 0) outer rest else none
        | none => do closed? o fuel {} (k :: outer) (← opened? o cs)
      else if "&-~".toList.contains c && cs.head? = some c then
        closed? o fuel k.operate outer cs.tail
      else do closed? o fuel (k.add 0) outer (← range? o (c :: cs))

def class? (o : Options) (cs : List Char) : Option (Nat × List Char) := do
  closed? o (cs.length + 1) {} [] (← opened? o cs)

end SampleCast.Pattern
