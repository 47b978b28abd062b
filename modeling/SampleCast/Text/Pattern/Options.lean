import SampleCast.Text.Parts

/-! Options and depth of patterns.
An option changes how the rest of a group is read. In a spaced pattern blanks are passed over, and
so are comments, which last from a number sign to the end of the line.

What holds other parts is one level deeper than the deepest of them, and a part that stands alone
is not held by a list. -/

namespace SampleCast.Pattern

structure Options where
  bothCases : Bool := false
  characters : Bool := true
  spaced : Bool := false
  deriving DecidableEq, Inhabited

namespace Options

/-- Only the letters of ASCII are known in both cases, and only as bytes. -/
def lacksCases (o : Options) : Bool := o.bothCases && o.characters

def set (o : Options) (on : Bool) : Char → Options
  | 'i' => { o with bothCases := on }
  | 'u' => { o with characters := on }
  | 'x' => { o with spaced := on }
  | _ => o

def change : Options → Bool → List Char → Options
  | o, _, [] => o
  | o, _, '-' :: cs => change o false cs
  | o, on, c :: cs => change (o.set on c) on cs

def areLetters (cs : List Char) : Bool :=
  cs.all ("imsUuRx-".toList.contains ·) && cs.Nodup && cs.getLast? != some '-'

end Options

def afterBlanks : Bool → List Char → List Char
  | _, [] => []
  | true, c :: cs => afterBlanks (c != '\n') cs
  | false, c :: cs =>
    if isBlank c then afterBlanks false cs else if c = '#' then afterBlanks true cs else c :: cs

theorem length_afterBlanks_le (inComment : Bool) (cs : List Char) :
    (afterBlanks inComment cs).length ≤ cs.length := by
  fun_induction afterBlanks inComment cs with
  | case1 => exact Nat.le_refl _
  | case2 _ _ ih => exact Nat.le_succ_of_le ih
  | case3 _ _ _ ih => exact Nat.le_succ_of_le ih
  | case4 _ _ ih => exact Nat.le_succ_of_le ih
  | case5 => exact Nat.le_refl _

namespace Options

def afterSpace (o : Options) (cs : List Char) : List Char :=
  if o.spaced then afterBlanks false cs else cs

/-- The character after a dash by which the dash is known as one between the ends of a range. A
comment is looked into. -/
def afterDash? (o : Options) (cs : List Char) : Option Char :=
  if o.spaced then
    match cs.dropWhile isBlank with
    | '#' :: cs => cs.find? (!isBlank ·)
    | cs => cs.head?
  else cs.head?

end Options

def depthLimit : Nat := 250

def deepest : List Nat → Nat
  | [] => 0
  | d :: ds => max d (deepest ds)

def listDepth : List Nat → Nat
  | [] => 0
  | [d] => d
  | ds => deepest ds + 1

theorem le_deepest {d : Nat} {ds : List Nat} (h : d ∈ ds) : d ≤ deepest ds := by
  induction h with
  | head => exact Nat.le_max_left ..
  | tail _ _ ih => exact Nat.le_trans ih (Nat.le_max_right ..)

theorem le_listDepth {d : Nat} {ds : List Nat} (h : d ∈ ds) : d ≤ listDepth ds := by
  match ds with
  | [_] => exact Nat.le_of_eq (List.mem_singleton.mp h)
  | _ :: _ :: _ => exact Nat.le_succ_of_le (le_deepest h)

end SampleCast.Pattern
