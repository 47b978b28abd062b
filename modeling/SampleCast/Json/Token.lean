import SampleCast.Json.Value

/-! The tokens of a JSON text.
Between tokens there may be blanks. A string holds no control character, and its escapes are those
of the format. -/

namespace SampleCast

inductive JsonToken
  | openObject
  | closeObject
  | openArray
  | closeArray
  | colon
  | comma
  | null
  | bool (b : Bool)
  | number (n : JsonNumber)
  | string (text : Option (List Char))
  deriving DecidableEq, Inhabited

namespace JsonToken

def isBlank (c : Char) : Bool := c == ' ' || c == '\t' || c == '\n' || c == '\r'

def isDigit (c : Char) : Bool := '0' ≤ c && c ≤ '9'

def digitsValue (digits : List Char) : Nat :=
  digits.foldl (fun n c => n * 10 + (c.toNat - '0'.toNat)) 0

def scanDigits (cs : List Char) : Option (List Char × List Char) :=
  match cs.takeWhile isDigit with
  | [] => none
  | digits => some (digits, cs.dropWhile isDigit)

def scanWhole : List Char → Option (Nat × List Char)
  | '0' :: rest => some (0, rest)
  | cs => (scanDigits cs).map fun (digits, rest) => (digitsValue digits, rest)

def scanFraction : List Char → Option (Bool × List Char)
  | '.' :: rest => (scanDigits rest).map fun (_, rest) => (true, rest)
  | cs => some (false, cs)

def skipSign : List Char → List Char
  | '+' :: rest => rest
  | '-' :: rest => rest
  | cs => cs

def scanExponent : List Char → Option (Bool × List Char)
  | 'e' :: rest => (scanDigits (skipSign rest)).map fun (_, rest) => (true, rest)
  | 'E' :: rest => (scanDigits (skipSign rest)).map fun (_, rest) => (true, rest)
  | cs => some (false, cs)

def scanUnsigned (negative : Bool) (cs : List Char) : Option (JsonNumber × List Char) := do
  let (n, cs) ← scanWhole cs
  let (fraction, cs) ← scanFraction cs
  let (exponent, cs) ← scanExponent cs
  some (if fraction || exponent then .inexact else .whole negative n, cs)

def scanNumber : List Char → Option (JsonNumber × List Char)
  | '-' :: rest => scanUnsigned true rest
  | cs => scanUnsigned false cs

def hexDigit? (c : Char) : Option Nat :=
  if '0' ≤ c ∧ c ≤ '9' then some (c.toNat - '0'.toNat)
  else if 'a' ≤ c ∧ c ≤ 'f' then some (c.toNat - 'a'.toNat + 10)
  else if 'A' ≤ c ∧ c ≤ 'F' then some (c.toNat - 'A'.toNat + 10)
  else none

def hexUnit? (a b c d : Char) : Option Nat := do
  let a ← hexDigit? a
  let b ← hexDigit? b
  let c ← hexDigit? c
  let d ← hexDigit? d
  some (((a * 16 + b) * 16 + c) * 16 + d)

def isHighSurrogate (n : Nat) : Bool := 0xD800 ≤ n && n < 0xDC00

def isLowSurrogate (n : Nat) : Bool := 0xDC00 ≤ n && n < 0xE000

def escaped? : Char → Option Char
  | '"' => some '"'
  | '\\' => some '\\'
  | '/' => some '/'
  | 'b' => some '\x08'
  | 'f' => some '\x0c'
  | 'n' => some '\n'
  | 'r' => some '\r'
  | 't' => some '\t'
  | _ => none

def push (c : Option Char) : Option (List Char) × List Char → Option (List Char) × List Char
  | (text, rest) => ((match c, text with | some c, some s => some (c :: s) | _, _ => none), rest)

def scanString : List Char → Option (Option (List Char) × List Char)
  | [] => none
  | '"' :: rest => some (some [], rest)
  | '\\' :: 'u' :: a :: b :: c :: d :: rest =>
    match hexUnit? a b c d with
    | none => none
    | some unit =>
      if isHighSurrogate unit then
        match rest with
        | '\\' :: 'u' :: e :: f :: g :: h :: more =>
          match hexUnit? e f g h with
          | none => none
          | some low =>
            if isLowSurrogate low then
              (scanString more).map
                (push (some (Char.ofNat (0x10000 + (unit - 0xD800) * 0x400 + (low - 0xDC00)))))
            else (scanString ('\\' :: 'u' :: e :: f :: g :: h :: more)).map (push none)
        | rest => (scanString rest).map (push none)
      else if isLowSurrogate unit then (scanString rest).map (push none)
      else (scanString rest).map (push (some (Char.ofNat unit)))
  | '\\' :: c :: rest =>
    match escaped? c with
    | none => none
    | some c => (scanString rest).map (push (some c))
  | c :: rest => if c = '\\' ∨ c < ' ' then none else (scanString rest).map (push (some c))
termination_by cs => cs.length

def scanOne : List Char → Option (JsonToken × List Char)
  | '\x7b' :: rest => some (.openObject, rest)
  | '\x7d' :: rest => some (.closeObject, rest)
  | '[' :: rest => some (.openArray, rest)
  | ']' :: rest => some (.closeArray, rest)
  | ':' :: rest => some (.colon, rest)
  | ',' :: rest => some (.comma, rest)
  | 'n' :: 'u' :: 'l' :: 'l' :: rest => some (.null, rest)
  | 't' :: 'r' :: 'u' :: 'e' :: rest => some (.bool true, rest)
  | 'f' :: 'a' :: 'l' :: 's' :: 'e' :: rest => some (.bool false, rest)
  | '"' :: rest => (scanString rest).map fun (text, rest) => (.string text, rest)
  | cs => (scanNumber cs).map fun (n, rest) => (.number n, rest)

/-- The tokens of a text that has fewer of them than `fuel`. -/
def scanWith : Nat → List Char → Option (List JsonToken)
  | 0, _ => none
  | fuel + 1, cs =>
    match cs.dropWhile isBlank with
    | [] => some []
    | cs =>
      match scanOne cs with
      | none => none
      | some (t, rest) => (scanWith fuel rest).map (t :: ·)

def scan (cs : List Char) : Option (List JsonToken) := scanWith (cs.length + 1) cs

end JsonToken
end SampleCast
