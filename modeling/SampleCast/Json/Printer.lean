import SampleCast.Json.Value

/-! Printing JSON values.
Every item and every member has a line of its own, indented by two blanks for each level. An empty
array and an empty object have no lines. -/

namespace SampleCast.JsonValue

def hexDigits (n : Nat) : List Char :=
  [Nat.digitChar (n / 16), Nat.digitChar (n % 16)]

def escape (c : Char) : List Char :=
  if c = '"' then ['\\', '"']
  else if c = '\\' then ['\\', '\\']
  else if c = '\x08' then ['\\', 'b']
  else if c = '\x0c' then ['\\', 'f']
  else if c = '\n' then ['\\', 'n']
  else if c = '\r' then ['\\', 'r']
  else if c = '\t' then ['\\', 't']
  else if c < ' ' then ['\\', 'u', '0', '0'] ++ hexDigits c.toNat
  else [c]

def quoted (text : List Char) : List Char := '"' :: text.flatMap escape ++ ['"']

def lineBreak (level : Nat) : List Char := '\n' :: List.replicate (2 * level) ' '

def digits : JsonNumber → List Char
  | .whole negative n => (if negative then ['-'] else []) ++ (toString n).toList
  | .inexact => []

def lines (level : Nat) : List (List Char) → List Char
  | [] => []
  | [item] => lineBreak level ++ item
  | item :: more => lineBreak level ++ item ++ ',' :: lines level more

def bracketed (level : Nat) (opening closing : Char) : List (List Char) → List Char
  | [] => [opening, closing]
  | items => opening :: lines (level + 1) items ++ lineBreak level ++ [closing]

mutual

def print (level : Nat) : JsonValue → List Char
  | .null => "null".toList
  | .bool b => (if b then "true" else "false").toList
  | .number n => digits n
  | .string text => quoted (text.getD [])
  | .array items => bracketed level '[' ']' (printItems (level + 1) items)
  | .object members => bracketed level '\x7b' '\x7d' (printMembers (level + 1) members)

def printItems (level : Nat) : List JsonValue → List (List Char)
  | [] => []
  | v :: more => print level v :: printItems level more

def printMembers (level : Nat) : List (Option (List Char) × JsonValue) → List (List Char)
  | [] => []
  | (key, v) :: more =>
    (quoted (key.getD []) ++ ':' :: ' ' :: print level v) :: printMembers level more

end

def pretty (v : JsonValue) : String := String.ofList (print 0 v)

end SampleCast.JsonValue
