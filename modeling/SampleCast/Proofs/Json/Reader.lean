import SampleCast.Json.Reader
import SampleCast.Proofs.Json.Spelling

/-! Reading every text of a JSON value.
A value has one list of tokens, and many texts. Main statement: `parse?_of_spells`, that the value
is read off each of them. -/

namespace SampleCast.JsonValue

mutual

def tokens : JsonValue → List JsonToken
  | .null => [.null]
  | .bool b => [.bool b]
  | .number n => [.number n]
  | .string text => [.string text]
  | .array items => .openArray :: ([.comma].intercalate (itemTokens items) ++ [.closeArray])
  | .object members =>
    .openObject :: ([.comma].intercalate (memberTokens members) ++ [.closeObject])

def itemTokens : List JsonValue → List (List JsonToken)
  | [] => []
  | v :: more => tokens v :: itemTokens more

def memberTokens : List (Option (List Char) × JsonValue) → List (List JsonToken)
  | [] => []
  | (key, v) :: more => (.string key :: .colon :: tokens v) :: memberTokens more

end

variable {fuel : Nat} {rest : List JsonToken}

theorem head_tokens (v : JsonValue) :
    ∃ t more, v.tokens = t :: more ∧ t ≠ .closeArray := by
  cases v with
  | _ => exact ⟨_, _, rfl, nofun⟩

theorem itemTokens_head (v : JsonValue) (items : List JsonValue) (rest more : List JsonToken) :
    [.comma].intercalate (itemTokens (v :: items)) ++ rest ≠ .closeArray :: more := by
  obtain ⟨t, front, hv, ht⟩ := head_tokens v
  cases items with
  | nil =>
    rw [itemTokens, itemTokens, List.intercalate_singleton, hv]
    exact fun h => ht (List.cons.inj h).1
  | cons w items =>
    rw [itemTokens, itemTokens, List.intercalate_cons_cons, hv]
    exact fun h => ht (List.cons.inj h).1

theorem memberTokens_head (key : Option (List Char)) (v : JsonValue)
    (members : List (Option (List Char) × JsonValue)) (rest more : List JsonToken) :
    [.comma].intercalate (memberTokens ((key, v) :: members)) ++ rest ≠ .closeObject :: more := by
  cases members with
  | nil =>
    rw [memberTokens, memberTokens, List.intercalate_singleton]
    exact nofun
  | cons w members =>
    rw [memberTokens, memberTokens, List.intercalate_cons_cons]
    exact nofun

theorem read_openArray (h : ∀ more, rest ≠ .closeArray :: more) :
    read (fuel + 1) (.openArray :: rest) =
      (readItems fuel rest).map fun (items, rest) => (.array items, rest) := by
  rw [read]
  exact h

theorem read_openObject (h : ∀ more, rest ≠ .closeObject :: more) :
    read (fuel + 1) (.openObject :: rest) =
      (readMembers fuel rest).map fun (members, rest) => (.object members, rest) := by
  rw [read]
  exact h

-- A list takes one unit of fuel for each of its entries and one for itself, and both its brackets
-- and the commas between the entries are tokens.
mutual

theorem read_tokens (v : JsonValue) {fuel : Nat} (rest : List JsonToken)
    (hfuel : 2 * v.tokens.length ≤ fuel) : read fuel (v.tokens ++ rest) = some (v, rest) := by
  obtain ⟨t, more, htokens, -⟩ := head_tokens v
  obtain ⟨fuel, rfl⟩ : ∃ n, fuel = n + 1 := Nat.exists_eq_add_one.mpr (by
    rw [htokens, List.length_cons] at hfuel
    omega)
  match v with
  | .null => rw [tokens, List.singleton_append, read]
  | .bool b => rw [tokens, List.singleton_append, read]
  | .number n => rw [tokens, List.singleton_append, read]
  | .string text => rw [tokens, List.singleton_append, read]
  | .array [] => rw [tokens, itemTokens]; rfl
  | .array (v :: items) =>
    rw [tokens, List.length_cons, List.length_append, List.length_singleton] at hfuel
    rw [tokens, List.cons_append, List.append_assoc, List.singleton_append,
      read_openArray (itemTokens_head v items _),
      readItems_tokens (v :: items) rest nofun (by omega)]
    rfl
  | .object [] => rw [tokens, memberTokens]; rfl
  | .object ((key, v) :: members) =>
    rw [tokens, List.length_cons, List.length_append, List.length_singleton] at hfuel
    rw [tokens, List.cons_append, List.append_assoc, List.singleton_append,
      read_openObject (memberTokens_head key v members _),
      readMembers_tokens ((key, v) :: members) rest nofun (by omega)]
    rfl

theorem readItems_tokens (items : List JsonValue) {fuel : Nat} (rest : List JsonToken)
    (hne : items ≠ []) (hfuel : 2 * ([.comma].intercalate (itemTokens items)).length < fuel) :
    readItems fuel ([.comma].intercalate (itemTokens items) ++ .closeArray :: rest) =
      some (items, rest) := by
  obtain ⟨fuel, rfl⟩ := Nat.exists_eq_add_one.mpr (Nat.zero_lt_of_lt hfuel)
  match items with
  | [] => exact absurd rfl hne
  | [v] =>
    rw [itemTokens, itemTokens, List.intercalate_singleton] at hfuel ⊢
    rw [readItems, read_tokens v _ (by omega)]
  | v :: w :: items =>
    rw [itemTokens, itemTokens, List.intercalate_cons_cons, ← itemTokens] at hfuel ⊢
    simp only [List.length_append, List.length_singleton] at hfuel
    have hmore := @readItems_tokens (w :: items) fuel rest nofun (by omega)
    rw [List.append_assoc, List.append_assoc, List.singleton_append, readItems,
      read_tokens v _ (by omega)]
    simp only [hmore, Option.map_some]

theorem readMembers_tokens (members : List (Option (List Char) × JsonValue)) {fuel : Nat}
    (rest : List JsonToken) (hne : members ≠ [])
    (hfuel : 2 * ([.comma].intercalate (memberTokens members)).length < fuel) :
    readMembers fuel ([.comma].intercalate (memberTokens members) ++ .closeObject :: rest) =
      some (members, rest) := by
  obtain ⟨fuel, rfl⟩ := Nat.exists_eq_add_one.mpr (Nat.zero_lt_of_lt hfuel)
  match members with
  | [] => exact absurd rfl hne
  | [(key, v)] =>
    rw [memberTokens, memberTokens, List.intercalate_singleton] at hfuel ⊢
    simp only [List.length_cons] at hfuel
    rw [List.cons_append, List.cons_append, readMembers, read_tokens v _ (by omega)]
  | (key, v) :: (key', w) :: members =>
    rw [memberTokens, memberTokens, List.intercalate_cons_cons, ← memberTokens] at hfuel ⊢
    simp only [List.length_append, List.length_cons, List.length_nil] at hfuel
    have hmore := @readMembers_tokens ((key', w) :: members) fuel rest nofun (by omega)
    rw [List.append_assoc, List.append_assoc, List.singleton_append, List.cons_append,
      List.cons_append, readMembers, read_tokens v _ (by omega)]
    simp only [hmore, Option.map_some]

end

theorem ofTokens?_tokens (v : JsonValue) : ofTokens? v.tokens = some v := by
  have hread := read_tokens v [] (Nat.le_succ (2 * v.tokens.length))
  rw [List.append_nil] at hread
  rw [ofTokens?, hread]

/-- Every text of a value is read to the value. -/
theorem parse?_of_spells {v : JsonValue} {s : List Char} (h : JsonToken.Spells v.tokens s) :
    parse? (String.ofList s) = some v := by
  rw [parse?, String.toList_ofList, JsonToken.scan_of_spells h, Option.bind_some,
    ofTokens?_tokens]

end SampleCast.JsonValue
