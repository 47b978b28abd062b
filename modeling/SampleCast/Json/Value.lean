/-! JSON values.
A number that is written with a fraction or an exponent is `inexact`, because no setting reads it. A
string that holds an escape for half of a surrogate pair has no text; it may be skipped but not
read. Members keep the order and the repetitions of the text. -/

namespace SampleCast

inductive JsonNumber
  | whole (negative : Bool) (magnitude : Nat)
  | inexact
  deriving DecidableEq, Inhabited

inductive JsonValue
  | null
  | bool (b : Bool)
  | number (n : JsonNumber)
  | string (text : Option (List Char))
  | array (items : List JsonValue)
  | object (members : List (Option (List Char) × JsonValue))
  deriving Inhabited

namespace JsonValue

def ofNat (n : Nat) : JsonValue := .number (.whole false n)

def ofInt (i : Int) : JsonValue := .number (.whole (i < 0) i.natAbs)

def ofText (s : String) : JsonValue := .string (some s.toList)

def ofFields (fields : List (String × JsonValue)) : JsonValue :=
  .object (fields.map fun (name, v) => (some name.toList, v))

def nat? (limit : Nat) : JsonValue → Option Nat
  | .number (.whole false n) => if n ≤ limit then some n else none
  | _ => none

def int? (w : Nat) : JsonValue → Option Int
  | .number (.whole false n) => if n < Nat.pow 2 (w - 1) then some (Int.ofNat n) else none
  | .number (.whole true n) =>
    if n ≠ 0 ∧ n ≤ Nat.pow 2 (w - 1) then some (-Int.ofNat n) else none
  | _ => none

def bool? : JsonValue → Option Bool
  | .bool b => some b
  | _ => none

def text? : JsonValue → Option String
  | .string s => s.map String.ofList
  | _ => none

/-- The value of each of `names` in an object, where it may be absent but not repeated. Other
members are ignored, but every member has a readable name. -/
def members? (names : List String) (members : List (Option (List Char) × JsonValue)) :
    Option (List (Option JsonValue)) :=
  if members.all (fun (key, _) => key.isSome) ∧
      names.all (fun name => (members.filter fun (key, _) => key == some name.toList).length ≤ 1)
  then some (names.map fun name => members.lookup (some name.toList))
  else none

/-- The value of each field of a record. A record is written as an object or as an array of its
first fields in order. -/
def fields? (names : List String) : JsonValue → Option (List (Option JsonValue))
  | .object members => members? names members
  | .array items =>
    if items.length ≤ names.length then
      some (items.map some ++ List.replicate (names.length - items.length) none)
    else none
  | _ => none

end JsonValue
end SampleCast
