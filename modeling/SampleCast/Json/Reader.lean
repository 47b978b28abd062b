import SampleCast.Json.Token

/-! Reading JSON values.
A text is one value with nothing but blanks around it. -/

namespace SampleCast.JsonValue

mutual

def read : Nat → List JsonToken → Option (JsonValue × List JsonToken)
  | 0, _ => none
  | fuel + 1, tokens =>
    match tokens with
    | .null :: rest => some (.null, rest)
    | .bool b :: rest => some (.bool b, rest)
    | .number n :: rest => some (.number n, rest)
    | .string s :: rest => some (.string s, rest)
    | .openArray :: .closeArray :: rest => some (.array [], rest)
    | .openArray :: rest => (readItems fuel rest).map fun (items, rest) => (.array items, rest)
    | .openObject :: .closeObject :: rest => some (.object [], rest)
    | .openObject :: rest =>
      (readMembers fuel rest).map fun (members, rest) => (.object members, rest)
    | _ => none

def readItems : Nat → List JsonToken → Option (List JsonValue × List JsonToken)
  | 0, _ => none
  | fuel + 1, tokens =>
    match read fuel tokens with
    | some (v, .comma :: rest) => (readItems fuel rest).map fun (vs, rest) => (v :: vs, rest)
    | some (v, .closeArray :: rest) => some ([v], rest)
    | _ => none

def readMembers :
    Nat → List JsonToken → Option (List (Option (List Char) × JsonValue) × List JsonToken)
  | 0, _ => none
  | fuel + 1, tokens =>
    match tokens with
    | .string key :: .colon :: rest =>
      match read fuel rest with
      | some (v, .comma :: rest) =>
        (readMembers fuel rest).map fun (more, rest) => ((key, v) :: more, rest)
      | some (v, .closeObject :: rest) => some ([(key, v)], rest)
      | _ => none
    | _ => none

end

/-- The value of a list of tokens. No value is nested deeper than twice the number of its tokens. -/
def ofTokens? (tokens : List JsonToken) : Option JsonValue :=
  match read (2 * tokens.length + 1) tokens with
  | some (v, []) => some v
  | _ => none

def parse? (text : String) : Option JsonValue := (JsonToken.scan text.toList).bind ofTokens?

end SampleCast.JsonValue
