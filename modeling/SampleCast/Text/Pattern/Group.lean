import SampleCast.Text.Numeric
import SampleCast.Text.Pattern.Options

/-! Groups, which are parts of a pattern in parentheses.
The whole of a pattern is read like a group. It has one or more branches, and a branch is a list of
pieces. -/

namespace SampleCast.Pattern

inductive Opening
  | options (o : Options)
  | group (o : Options) (name : Option (List Char))
  deriving DecidableEq, Inhabited

def isName (name : List Char) : Bool :=
  match name with
  | [] => false
  | c :: cs =>
    (c == '_' || isAlphabetic c) && cs.all fun c => "_.[]".toList.contains c || isAlphanumeric c

def namedGroup? (o : Options) (cs : List Char) : Option (Opening × List Char) :=
  let name := cs.takeWhile (· != '>')
  match cs.drop name.length with
  | _ :: rest => if isName name then some (.group o (some name), rest) else none
  | [] => none

def opening? (o : Options) : List Char → Option (Opening × List Char)
  | '?' :: 'P' :: '<' :: cs => namedGroup? o cs
  | '?' :: '<' :: cs => namedGroup? o cs
  | '?' :: cs =>
    let letters := cs.takeWhile fun c => c != ':' && c != ')'
    if Options.areLetters letters then
      match cs.drop letters.length with
      | ':' :: rest => some (.group (o.change true letters) none, rest)
      | ')' :: rest =>
        if letters.isEmpty then none else some (.options (o.change true letters), rest)
      | _ => none
    else none
  | cs => some (.group o none, cs)

structure Piece where
  depth : Nat := 0
  repeatable : Bool := true
  deriving DecidableEq, Inhabited

structure OpenGroup where
  around : Options := {}
  pieces : List Piece := []
  branches : List Nat := []
  deriving DecidableEq, Inhabited

namespace OpenGroup

def add (g : OpenGroup) (piece : Piece) : OpenGroup := { g with pieces := piece :: g.pieces }

def branch (g : OpenGroup) : Nat := listDepth (g.pieces.map (·.depth))

def inner (g : OpenGroup) : Nat := listDepth (g.branch :: g.branches)

def alternate (g : OpenGroup) : OpenGroup :=
  { g with pieces := [], branches := g.branch :: g.branches }

def repeat? (g : OpenGroup) : Option OpenGroup :=
  match g.pieces with
  | ⟨depth, true⟩ :: pieces => some { g with pieces := ⟨depth + 1, true⟩ :: pieces }
  | _ => none

end OpenGroup
end SampleCast.Pattern
