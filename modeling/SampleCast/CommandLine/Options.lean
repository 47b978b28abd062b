/-! Command lines.
A grammar lists the options of a program and what each of them does to a record of type `α`, and
then its operands. Arguments are read from left to right, and the first thing that is wrong, or that
asks for help or for the version, decides. A value may stand in the argument of its option or be the
next argument, which then must not look like an option. After `--` every argument is an operand. -/

namespace SampleCast.CommandLine

inductive Effect (α : Type)
  | flag (set : α → α)
  | value (set : String → α → Option α)
  | help
  | version

structure Switch (α : Type) where
  long : String
  short : Option Char := none
  repeatable : Bool := false
  effect : Effect α

structure Grammar (α : Type) where
  switches : List (Switch α)
  operands : List (String → α → Option α) := []

structure Progress (α : Type) where
  result : α
  seen : List String := []
  operands : List (String → α → Option α)
  awaiting : Option (Switch α) := none

inductive Parsed (α : Type)
  | given (result : α)
  | help
  | version
  | misuse

inductive Turn (α : Type)
  | on (p : Progress α)
  | decided (r : Parsed α)

variable {α : Type}

namespace Grammar

def common : List (Switch α) :=
  [{ long := "help", short := some 'h', effect := .help },
    { long := "version", short := some 'V', effect := .version }]

def all (g : Grammar α) : List (Switch α) := g.switches ++ common

def long? (g : Grammar α) (name : List Char) : Option (Switch α) :=
  g.all.find? (·.long.toList == name)

def short? (g : Grammar α) (c : Char) : Option (Switch α) := g.all.find? (·.short == some c)

end Grammar

namespace Progress

def note (p : Progress α) (s : Switch α) : Option (Progress α) :=
  if p.seen.contains s.long && !s.repeatable then none
  else some { p with seen := s.long :: p.seen, awaiting := none }

def change (p : Progress α) (set : α → Option α) : Turn α :=
  match set p.result with
  | some result => .on { p with result }
  | none => .decided .misuse

def take (p : Progress α) (s : Switch α) (value : Option String) : Turn α :=
  match p.note s, s.effect, value with
  | some _, .help, none => .decided .help
  | some _, .version, none => .decided .version
  | some p, .flag set, none => p.change fun r => some (set r)
  | some p, .value set, some v => p.change (set v)
  | some _, .value _, none => .on { p with awaiting := some s }
  | _, _, _ => .decided .misuse

def operand (p : Progress α) (arg : String) : Turn α :=
  match p.operands with
  | [] => .decided .misuse
  | set :: more => { p with operands := more }.change (set arg)

/-- The letters of one argument. The first letter that needs a value takes what follows it. -/
def cluster (g : Grammar α) (p : Progress α) : List Char → Turn α
  | [] => .on p
  | c :: cs =>
    match g.short? c with
    | none => .decided .misuse
    | some s =>
      match s.effect, cs with
      | .value _, _ :: _ =>
        p.take s (some (String.ofList (if cs.head? = some '=' then cs.tail else cs)))
      | _, _ =>
        match p.take s none with
        | .on p => cluster g p cs
        | decided => decided

def long (g : Grammar α) (p : Progress α) (cs : List Char) : Turn α :=
  match g.long? (cs.takeWhile (· != '=')) with
  | none => .decided .misuse
  | some s =>
    match cs.dropWhile (· != '=') with
    | [] => p.take s none
    | _ :: value => p.take s (some (String.ofList value))

def looksLikeOption (arg : String) : Bool :=
  match arg.toList with
  | '-' :: _ :: _ => true
  | _ => false

def argument (g : Grammar α) (p : Progress α) (arg : String) : Turn α :=
  match p.awaiting with
  | some s => if looksLikeOption arg then .decided .misuse else p.take s (some arg)
  | none =>
    match arg.toList with
    | '-' :: '-' :: cs => p.long g cs
    | '-' :: c :: cs => p.cluster g (c :: cs)
    | _ => p.operand arg

def operandsOnly (p : Progress α) : List String → Parsed α
  | [] => .given p.result
  | arg :: more =>
    match p.operand arg with
    | .on p => operandsOnly p more
    | .decided r => r

def readAll (g : Grammar α) (p : Progress α) : List String → Parsed α
  | [] => if p.awaiting.isSome then .misuse else .given p.result
  | arg :: more =>
    if arg = "--" ∧ p.awaiting.isNone then p.operandsOnly more
    else
      match p.argument g arg with
      | .on p => readAll g p more
      | .decided r => r

end Progress

def Grammar.parse (g : Grammar α) (defaults : α) (args : List String) : Parsed α :=
  Progress.readAll g { result := defaults, operands := g.operands } args

def number? (limit : Nat) (text : String) : Option Nat :=
  let digits :=
    match text.toList with
    | '+' :: cs => cs
    | cs => cs
  if digits.isEmpty || !digits.all Char.isDigit then none
  else
    let n := digits.foldl (fun n c => n * 10 + (c.toNat - '0'.toNat)) 0
    if n ≤ limit then some n else none

/-- Short words are read as signed numbers, so that zero may also have a minus sign. -/
def shortNumber? (limit : Nat) (text : String) : Option Nat :=
  match text.toList with
  | '-' :: cs => if cs ≠ [] ∧ cs.all (· == '0') then some 0 else none
  | _ => number? limit text

def word16? (text : String) : Option UInt16 :=
  (shortNumber? (UInt16.size - 1) text).map UInt16.ofNat

def word32? (text : String) : Option UInt32 :=
  (shortNumber? (UInt32.size - 1) text).map UInt32.ofNat

def word64? (text : String) : Option UInt64 := (number? (UInt64.size - 1) text).map UInt64.ofNat

structure Exit where
  code : UInt8
  output : String := ""
  error : Option String := none
  deriving DecidableEq, Inhabited

/-- The end of a program that is given a broken text. It reports no error of its own. -/
def Exit.aborted : Exit := { code := 101 }

end SampleCast.CommandLine
