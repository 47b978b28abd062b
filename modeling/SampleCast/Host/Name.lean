import SampleCast.Address

/-! Names of hosts.
A host is named by an address, or by a name that has to be looked up. More texts are addresses here
than elsewhere. A version 4 address may have fewer numbers, of which the last one fills all bytes
that are left, and its numbers may be in base eight or sixteen. A version 6 address may be followed
by the link of the host that leads to it. -/

namespace SampleCast

inductive HostName
  | address (a : Address) (onLink : Bool)
  | name (text : String)
  deriving DecidableEq, Inhabited

namespace Address

def ofNumber (n : Nat) : Address :=
  .v4 (UInt8.ofNat (n / 0x1000000)) (UInt8.ofNat (n / 0x10000)) (UInt8.ofNat (n / 0x100))
    (UInt8.ofNat n)

def isMulticast : Address → Bool
  | .v4 a .. => 224 ≤ a && a < 240
  | .v6 a .. => 0xff00 ≤ a

def isLinkLocal : Address → Bool
  | .v4 .. => false
  | .v6 a .. => 0xfe80 ≤ a && a < 0xfec0

def hasNamedLink (a : Address) : Bool :=
  a.isLinkLocal ||
    match a with
    | .v4 .. => false
    | .v6 a .. => 0xff00 ≤ a && (a % 16 == 1 || a % 16 == 2)

end Address

namespace HostName

def number? (cs : List Char) : Option Nat :=
  let (radix, digits) :=
    match cs with
    | '0' :: c :: digits => if c = 'x' ∨ c = 'X' then (16, digits) else (8, c :: digits)
    | _ => (10, cs)
  if digits.isEmpty then none else (digits.mapM (Address.digit? radix)).map (Address.value radix)

def shortAddress? (cs : List Char) : Option Address := do
  let numbers ← (splitParts '.' cs).mapM number?
  let first := numbers.dropLast
  let last ← numbers.getLast?
  let room ← [0x100000000, 0x1000000, 0x10000, 0x100][first.length]?
  if last < room && first.all (· < 0x100) then
    some (.ofNumber (Address.value 0x100 first * room + last))
  else none

/-- Whether the text after a percent sign, which is a link of the host, limits an address to that
link. A link has a number. The only link with a name is the host's own, and zero is none. -/
def link? (a : Address) (cs : List Char) : Option Bool := do
  if cs = "lo".toList && a.hasNamedLink then some true
  else
    let digits ← cs.mapM (Address.digit? 10)
    let n := Address.value 10 digits
    if digits.isEmpty || 0x100000000 ≤ n then none else some (n != 0)

def linkedAddress? (cs : List Char) : Option HostName := do
  let start := cs.takeWhile (· != '%')
  let a ← Address.parse? (String.ofList start)
  match a, cs.drop start.length with
  | .v6 .., _ :: link => some (.address a (← link? a link))
  | _, _ => none

/-- The characters of a name. A backslash stands before a character that is meant as itself, or
before the three digits of its number. No dot is meant as itself. -/
def unescape? : List Char → Option (List Char)
  | [] => some []
  | '\\' :: c :: cs =>
    if c.isDigit then
      match cs with
      | d :: e :: cs => do
        let n := Address.value 10 (← [c, d, e].mapM (Address.digit? 10))
        if n < 0x100 && n != '.'.toNat then (unescape? cs).map (Char.ofNat n :: ·) else none
      | _ => none
    else if c = '.' then none
    else (unescape? cs).map (c :: ·)
  | ['\\'] => none
  | c :: cs => (unescape? cs).map (c :: ·)

def isLabel (cs : List Char) : Bool :=
  !cs.isEmpty && cs.length ≤ 63 && cs.all fun c => c.isAlphanum || c == '-' || c == '_'

/-- Whether a text has the form of a name, which is a list of labels with dots between them. A dot
may end it, and a dot alone is the name of the root. -/
def isName (cs : List Char) : Bool :=
  match unescape? cs with
  | none => false
  | some cs =>
    let labels := if cs.getLast? = some '.' then cs.dropLast else cs
    cs = ['.'] ||
      ((splitParts '.' labels).all isLabel && labels.length ≤ 253 && labels.head? != some '-')

def parse? (text : String) : Option HostName :=
  let cs := text.toList
  if let some a := Address.parse? text then some (.address a false)
  else if let some a := shortAddress? cs then some (.address a false)
  else if cs = ['*'] then some (.address .loopbackV4 false)
  else if let some h := linkedAddress? cs then some h
  else if isName cs then some (.name text)
  else none

end HostName
end SampleCast
