import SampleCast.Text.Pattern.Class
import SampleCast.Text.Pattern.Group

/-! Patterns, which are regular expressions.
Nothing is matched here; a pattern is only checked. It is read from left to right: groups and
classes are closed, a repetition repeats something, an escape is known, and nothing is nested too
deep. Sets that need the tables of Unicode are refused, and so is all that looks for the letters of
both cases or for the edges of words, unless the pattern is about bytes. A pattern about bytes must
not match a part of a character. Counted repetitions and named properties need braces and are
refused. -/

namespace SampleCast.Pattern

structure Progress where
  options : Options := {}
  group : OpenGroup := {}
  outer : List OpenGroup := []
  names : List (List Char) := []
  deriving DecidableEq, Inhabited

namespace Progress

def add (p : Progress) (piece : Piece) : Progress := { p with group := p.group.add piece }

def enter? (p : Progress) (o : Options) (name : Option (List Char)) : Option Progress :=
  if name.any p.names.contains then none
  else
    some {
      options := o
      group := { around := p.options }
      outer := p.group :: p.outer
      names := name.toList ++ p.names }

def leave? (p : Progress) : Option Progress :=
  match p.outer with
  | [] => none
  | g :: outer =>
    let piece : Piece := { depth := p.group.inner + 1 }
    some { p with options := p.group.around, group := g.add piece, outer }

def isComplete (p : Progress) : Bool := p.outer.isEmpty && p.group.inner ≤ depthLimit

end Progress

/-- What one step of the reading leads to, or `none` if the pattern is refused. A question mark
after a repetition belongs to it. -/
def step? (p : Progress) (c : Char) (cs : List Char) : Option (Progress × List Char) :=
  match c with
  | '(' => do
    match ← opening? p.options (p.options.afterSpace cs) with
    | (.options o, rest) => some ({ p.add { repeatable := false } with options := o }, rest)
    | (.group o name, rest) => some (← p.enter? o name, rest)
  | ')' => p.leave?.map (·, cs)
  | '|' => some ({ p with group := p.group.alternate }, cs)
  | '[' => do
    let (depth, rest) ← class? p.options cs
    some (p.add { depth }, rest)
  | '?' | '*' | '+' => do
    let group ← p.group.repeat?
    some ({ p with group }, if cs.head? = some '?' then cs.tail else cs)
  | '{' => none
  | '\\' => do
    let (e, rest) ← escape? p.options cs
    if e.isAllowed p.options then some (p.add {}, rest) else none
  | '.' => if p.options.characters then some (p.add {}, cs) else none
  | '^' | '$' => some (p.add {}, cs)
  | _ => if p.options.lacksCases then none else some (p.add {}, cs)

def readAll : Nat → Progress → List Char → Bool
  | 0, _, _ => false
  | fuel + 1, p, cs =>
    match p.options.afterSpace cs with
    | [] => p.isComplete
    | c :: cs =>
      match step? p c cs with
      | some (p, rest) => readAll fuel p rest
      | none => false

end Pattern

def isPattern (text : List Char) : Bool := Pattern.readAll (text.length + 1) {} text

end SampleCast
