import SampleCast.CommandLine.Options
import SampleCast.Text.Parts
import SampleCast.Text.Pattern.Reader

/-! Filters, which choose the reports that a program prints.
A level says how much a program reports of what it does. A filter is a list of directives with
commas between them. A directive is a level, or the start of the names of targets, or both with `=`
between them; without a level it admits all reports. What stands in brackets limits it to reports
within a span, or with a field. Of the directives for a report the most specific one decides, and of
equals the later; a report without one is not printed.

The blanks around a directive are passed over when it is divided, but its parts are cut from the
whole of it: blanks before it shift all parts, and blanks after it belong to the last one. -/

namespace SampleCast.CommandLine

inductive Verbosity
  | off
  | error
  | warn
  | info
  | debug
  | trace
  deriving DecidableEq, Inhabited

namespace Verbosity

def rank : Verbosity → Nat
  | .off => 0
  | .error => 1
  | .warn => 2
  | .info => 3
  | .debug => 4
  | .trace => 5

def ofNumber? (text : List Char) : Option Verbosity :=
  let digits := if text.head? = some '+' then text.tail else text
  match digits.dropWhile (· == '0') with
  | [] => if digits.isEmpty then none else some .off
  | ['1'] => some .error
  | ['2'] => some .warn
  | ['3'] => some .info
  | ['4'] => some .debug
  | ['5'] => some .trace
  | _ => none

def parse? (text : List Char) : Option Verbosity :=
  match String.ofList (text.map Char.toLower) with
  | "off" => some .off
  | "error" => some .error
  | "warn" => some .warn
  | "info" => some .info
  | "debug" => some .debug
  | "trace" => some .trace
  | _ => ofNumber? text

end Verbosity

inductive FilterFlaw
  | malformed
  | broken
  deriving DecidableEq, Inhabited

structure Directive where
  target : List Char := []
  field : Option (List Char) := none
  verbosity : Verbosity := .trace
  inSpan : Bool := false
  deriving DecidableEq, Inhabited

structure Report where
  target : String
  verbosity : Verbosity
  fields : List String
  deriving DecidableEq, Inhabited

namespace Directive

def remainder (text : List Char) (start : Nat) : Except FilterFlaw (List Char) :=
  match splitBytes? start text with
  | some (_, rest) => .ok rest
  | none => .error .broken

def part (text : List Char) (start stop : Nat) : Except FilterFlaw (List Char) := do
  match splitBytes? (stop - start) (← remainder text start) with
  | some (cs, _) => .ok cs
  | none => .error .broken

def isStart (c : Char) : Bool := isAlphanumeric c || "-:_".toList.contains c

def ofWord (word : List Char) : Directive :=
  match Verbosity.parse? word with
  | some verbosity => { verbosity }
  | none => { target := word }

def withLevel (d : Directive) (text : List Char) (start : Nat) : Except FilterFlaw Directive := do
  match ← remainder text start with
  | [] => .ok d
  | level =>
    match Verbosity.parse? level with
    | some verbosity => .ok { d with verbosity }
    | none => .error .malformed

def isDecimal (cs : List Char) : Bool :=
  let whole := cs.takeWhile Char.isDigit
  let rest := cs.drop whole.length
  let after := if rest.head? = some '.' then rest.tail else rest
  let fraction := if rest.head? = some '.' then after.takeWhile Char.isDigit else []
  !(whole.isEmpty && fraction.isEmpty) &&
    match after.drop fraction.length with
    | [] => true
    | e :: cs =>
      let digits := if cs.head? = some '+' || cs.head? = some '-' then cs.tail else cs
      e.toLower == 'e' && !digits.isEmpty && digits.all Char.isDigit

def isSigned : List Char → Bool
  | '+' :: cs =>
    isDecimal cs || ["inf", "infinity", "nan"].contains (String.ofList (cs.map Char.toLower))
  | _ => false

/-- A field is a name, or a name and the value that it must have, which is a number or a pattern.
What follows a second equals sign is passed over. Values are only known within spans. -/
def withField (d : Directive) (field : List Char) : Except FilterFlaw Directive :=
  let name := field.takeWhile (· != '=')
  match field.drop name.length with
  | [] => if name.isEmpty then .error .malformed else .ok { d with field := some name }
  | _ :: rest =>
    let value := rest.takeWhile (· != '=')
    if isSigned value || isPattern value then .ok { d with inSpan := true } else .error .malformed

def afterSpan (d : Directive) (text : List Char) (position : Nat) :
    List Char → Except FilterFlaw Directive
  | [] => .ok d
  | '=' :: _ => d.withLevel text (position + 1)
  | _ => .error .malformed

/-- What stands in the brackets: the name of a span, or a field in braces, or both. -/
def withSpan (d : Directive) (text : List Char) (start : Nat) (inner : List Char) :
    Except FilterFlaw Directive := do
  let name := inner.takeWhile fun c => c != ']' && c != '\x7b'
  let stop := start + byteLength name
  match inner.drop name.length with
  | [] => .error .malformed
  | ']' :: after =>
    let _ ← part text start stop
    { d with inSpan := true }.afterSpan text (stop + 1) after
  | _ :: inner =>
    let span ← part text start stop
    let field := inner.takeWhile (· != '\x7d')
    let close := stop + 1 + byteLength field
    match inner.drop field.length with
    | [] => .error .malformed
    | _ :: after =>
      let d ← { d with inSpan := !span.isEmpty }.withField (← part text (stop + 1) close)
      match after with
      | ']' :: after => d.afterSpan text (close + 2) after
      | _ => .error .malformed

def parse (text : List Char) : Except FilterFlaw Directive := do
  let body := trimBlanks text
  match body with
  | [] => .error .malformed
  | '[' :: inner => withSpan {} text 1 inner
  | c :: _ =>
    if isStart c then
      let name := body.takeWhile fun c => c != '=' && c != '['
      let position := byteLength name
      match body.drop name.length with
      | [] => .ok (ofWord text)
      | sign :: inner =>
        let d : Directive := { target := ← part text 0 position }
        if sign = '=' then d.withLevel text (position + 1)
        else d.withSpan text (position + 1) inner
    else .error .malformed

def isFor (d : Directive) (r : Report) : Bool :=
  !d.inSpan && d.target.isPrefixOf r.target.toList
    && d.field.all fun name => r.fields.contains (String.ofList name)

def outranks (d e : Directive) : Bool :=
  e.target.length < d.target.length
    || (e.target.length == d.target.length && (e.field.isNone || d.field.isSome))

end Directive

structure Filter where
  directives : List Directive
  deriving DecidableEq, Inhabited

namespace Filter

def parse (text : String) : Except FilterFlaw Filter := do
  let items := (splitParts ',' text.toList).filter (!·.isEmpty)
  return ⟨← items.mapM Directive.parse⟩

/-- The filter that a text asks for. A malformed text asks for a fallback level, and a broken one
leaves the program without a filter. -/
def read? (text : String) (fallback : Verbosity) : Option Filter :=
  match parse text with
  | .ok f => some f
  | .error .malformed => some ⟨[{ verbosity := fallback }]⟩
  | .error .broken => none

def prefer (best : Option Directive) (d : Directive) : Option Directive :=
  match best with
  | none => some d
  | some e => if d.outranks e then some d else some e

def deciding? (f : Filter) (r : Report) : Option Directive :=
  (f.directives.filter (·.isFor r)).foldl prefer none

def admits (f : Filter) (r : Report) : Bool :=
  (f.deciding? r).any fun d => r.verbosity.rank ≤ d.verbosity.rank

end Filter
end SampleCast.CommandLine
