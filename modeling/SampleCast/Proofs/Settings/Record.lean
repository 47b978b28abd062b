import Mathlib.Data.List.Forall2
import SampleCast.Proofs.Settings.Forms

/-! Records in JSON.
A record is an object of its fields or an array of its first fields. A field that is absent has its
default, and a field that is given twice is refused. Main definition: `Record.form`, that a record
whose fields have forms has one itself. -/

namespace SampleCast

/-- A field of a record, with the value that stands for it where it is absent. -/
structure Field (S : Type) where
  {Value : Type}
  name : String
  form : JsonForm Value
  absent : Value
  get : S → Value

def given {κ : Type} [BEq κ] (name : κ) (members : List (κ × JsonValue)) : List JsonValue :=
  (members.filter fun m => m.1 == name).map Prod.snd

namespace Field

variable {S : Type} {f : Field S} {x : f.Value} {vs : List JsonValue}

def Takes (f : Field S) (x : f.Value) : List JsonValue → Prop
  | [] => x = f.absent
  | [v] => f.form.Denotes v x
  | _ => False

def Reads (f : Field S) (x : f.Value) (found : Option JsonValue) : Prop :=
  JsonValue.orDefault f.absent f.form.read found = some x

theorem reads_iff {found : Option JsonValue} : f.Reads x found ↔ f.Takes x found.toList := by
  cases found with
  | none => exact ⟨fun h => (Option.some.inj h).symm, fun h => congrArg some h.symm⟩
  | some v => exact f.form.read_eq_some_iff

theorem takes_iff : f.Takes x vs ↔
    vs.length ≤ 1 ∧ (vs = [] → x = f.absent) ∧ ∀ v ∈ vs, f.form.Denotes v x := by
  match vs with
  | [] => exact ⟨fun h => ⟨Nat.zero_le 1, fun _ => h, List.forall_mem_nil _⟩, fun h => h.2.1 rfl⟩
  | [v] =>
    refine ⟨fun h => ⟨Nat.le_refl 1, nofun, List.forall_mem_singleton.mpr h⟩, fun h => ?_⟩
    exact h.2.2 v (List.mem_singleton_self v)
  | _ :: _ :: _ => exact ⟨nofun, fun h => absurd h.1 (by simp)⟩

theorem exists_takes (hlength : vs.length ≤ 1) (hvalue : ∀ v ∈ vs, ∃ x, f.form.Denotes v x) :
    ∃ x, f.Takes x vs := by
  match vs with
  | [] => exact ⟨f.absent, rfl⟩
  | [v] => exact hvalue v (List.mem_singleton_self v)
  | _ :: _ :: _ => exact absurd hlength (by simp)

end Field

/-- A record whose reader and printer go by its fields. The fields are all that there is in it, and
each may have any value whatever the others are. -/
structure Record (S : Type) where
  fields : List (Field S)
  default : S
  read : JsonValue → Option S
  write : S → JsonValue
  nodup : (fields.map Field.name).Nodup
  get_default : ∀ f ∈ fields, f.get default = f.absent
  ext : ∀ {s t}, (∀ f ∈ fields, f.get s = f.get t) → s = t
  exists_of_fields : ∀ {P : ∀ f : Field S, f.Value → Prop}, (∀ f ∈ fields, ∃ x, P f x) →
    ∃ s, ∀ f ∈ fields, P f (f.get s)
  read_eq_some_iff : ∀ {v s}, read v = some s ↔
    ∃ found, v.fields? (fields.map Field.name) = some found ∧
      List.Forall₂ (fun f found => f.Reads (f.get s) found) fields found
  write_eq : ∀ s, write s = .ofFields (fields.map fun f => (f.name, f.form.write (f.get s)))

section

variable {κ : Type} [BEq κ] [LawfulBEq κ] {name : κ} {v : JsonValue}
  {members : List (κ × JsonValue)}

theorem given_cons_self : given name ((name, v) :: members) = v :: given name members := by
  rw [given, List.filter_cons, if_pos (beq_self_eq_true name)]
  rfl

theorem given_cons_of_ne {key : κ} (h : key ≠ name) :
    given name ((key, v) :: members) = given name members := by
  rw [given, List.filter_cons, if_neg (mt eq_of_beq h)]
  rfl

theorem given_eq_nil (h : name ∉ members.map Prod.fst) : given name members = [] := by
  rw [given, List.map_eq_nil_iff, List.filter_eq_nil_iff]
  intro m hm hkey
  exact h (eq_of_beq hkey ▸ List.mem_map_of_mem hm)

theorem given_of_nodup (hnodup : (members.map Prod.fst).Nodup) (hmem : (name, v) ∈ members) :
    given name members = [v] := by
  induction members with
  | nil => cases hmem
  | cons m members ih =>
    obtain ⟨key, w⟩ := m
    obtain ⟨hnot, hnodup⟩ := List.nodup_cons.mp hnodup
    rcases List.mem_cons.mp hmem with heq | hmem
    · cases heq
      rw [given_cons_self, given_eq_nil hnot]
    · have hne : key ≠ name := by
        rintro rfl
        exact hnot (List.mem_map.mpr ⟨_, hmem, rfl⟩)
      rw [given_cons_of_ne hne, ih hnodup hmem]

theorem lookup_eq_head?_given : members.lookup name = (given name members).head? := by
  induction members with
  | nil => rfl
  | cons m members ih =>
    obtain ⟨key, v⟩ := m
    by_cases hkey : key = name
    · subst hkey
      rw [given_cons_self, List.lookup_cons_self, List.head?_cons]
    · rw [given_cons_of_ne hkey, ← ih, List.lookup_cons, beq_eq_false_iff_ne.mpr (Ne.symm hkey)]

theorem given_map_toList (name : String) (members : List (String × JsonValue)) :
    given (some name.toList) (members.map fun m => (some m.1.toList, m.2)) =
      given name members := by
  induction members with
  | nil => rfl
  | cons m members ih =>
    obtain ⟨key, v⟩ := m
    by_cases hkey : key = name
    · subst hkey
      rw [List.map_cons, given_cons_self, given_cons_self, ih]
    · have hne : some key.toList ≠ some name.toList :=
        fun h => hkey (String.toList_inj.mp (Option.some.inj h))
      rw [List.map_cons, given_cons_of_ne hne, given_cons_of_ne hkey, ih]

end

namespace JsonValue

theorem members?_eq_some_iff {names : List String}
    {members : List (Option (List Char) × JsonValue)} {found : List (Option JsonValue)} :
    members? names members = some found ↔ (∀ m ∈ members, m.1.isSome) ∧
      (∀ name ∈ names, (given (some name.toList) members).length ≤ 1) ∧
      (names.map fun name => (given (some name.toList) members).head?) = found := by
  have hlookup : ∀ name : String, members.lookup (some name.toList) =
      (given (some name.toList) members).head? := fun _ => lookup_eq_head?_given
  simp only [members?, hlookup, given, List.length_map, List.all_eq_true, decide_eq_true_eq,
    Option.ite_none_right_eq_some, Option.some.injEq, and_assoc]

theorem printable_ofFields {entries : List (String × JsonValue)} :
    (ofFields entries).Printable ↔ ∀ m ∈ entries, m.2.Printable := by
  rw [ofFields, Printable]
  induction entries with
  | nil => exact ⟨fun _ => List.forall_mem_nil _, fun _ => trivial⟩
  | cons m entries ih =>
    rw [List.map_cons, PrintableMembers, ih, List.forall_mem_cons]
    exact and_iff_right rfl

end JsonValue

theorem toList_head? {α : Type} {vs : List α} (h : vs.length ≤ 1) : vs.head?.toList = vs := by
  match vs with
  | [] => rfl
  | [_] => rfl
  | _ :: _ :: _ => exact absurd h (by simp)

namespace Record

variable {S : Type} {r : Record S} {s : S}

def Describes (r : Record S) (v : JsonValue) (s : S) : Prop :=
  match v with
  | .object members => (∀ m ∈ members, m.1.isSome) ∧
      ∀ f ∈ r.fields, f.Takes (f.get s) (given (some f.name.toList) members)
  | .array items => items.length ≤ r.fields.length ∧
      ∀ (i : Nat) (f : Field S), r.fields[i]? = some f → f.Takes (f.get s) items[i]?.toList
  | _ => False

theorem read_object_iff {members : List (Option (List Char) × JsonValue)} :
    r.read (.object members) = some s ↔ r.Describes (.object members) s := by
  rw [r.read_eq_some_iff]
  simp only [JsonValue.fields?, JsonValue.members?_eq_some_iff, List.forall_mem_map, List.map_map]
  constructor
  · rintro ⟨found, ⟨hkeys, honce, rfl⟩, hreads⟩
    rw [List.forall₂_map_right_iff, List.forall₂_same] at hreads
    refine ⟨hkeys, fun f hf => ?_⟩
    rw [← toList_head? (honce f hf)]
    exact Field.reads_iff.mp (hreads f hf)
  · rintro ⟨hkeys, htakes⟩
    refine ⟨_, ⟨hkeys, fun f hf => (Field.takes_iff.mp (htakes f hf)).1, rfl⟩, ?_⟩
    rw [List.forall₂_map_right_iff, List.forall₂_same]
    intro f hf
    refine Field.reads_iff.mpr ?_
    rw [Function.comp_apply, toList_head? (Field.takes_iff.mp (htakes f hf)).1]
    exact htakes f hf

theorem getElem?_padded {items : List JsonValue} {n i : Nat} (hi : i < n) :
    (items.map some ++ List.replicate (n - items.length) none)[i]? = some items[i]? := by
  by_cases hlt : i < items.length
  · rw [List.getElem?_append_left (by rwa [List.length_map]), List.getElem?_map,
      List.getElem?_eq_getElem hlt, Option.map_some]
  · have hge : items.length ≤ i := Nat.not_lt.mp hlt
    rw [List.getElem?_append_right (by rwa [List.length_map]), List.length_map,
      List.getElem?_replicate_of_lt (by omega), List.getElem?_eq_none hge]

theorem read_array_iff {items : List JsonValue} :
    r.read (.array items) = some s ↔ r.Describes (.array items) s := by
  rw [r.read_eq_some_iff]
  simp only [JsonValue.fields?, List.length_map, Option.ite_none_right_eq_some, Option.some.injEq]
  constructor
  · rintro ⟨found, ⟨hle, rfl⟩, hreads⟩
    refine ⟨hle, fun i f hf => ?_⟩
    obtain ⟨hi, rfl⟩ := List.getElem?_eq_some_iff.mp hf
    obtain ⟨hj, hfound⟩ := List.getElem?_eq_some_iff.mp (@getElem?_padded items _ _ hi)
    have hread := (List.forall₂_iff_get.mp hreads).2 i hi hj
    rw [List.get_eq_getElem, List.get_eq_getElem, hfound] at hread
    exact Field.reads_iff.mp hread
  · rintro ⟨hle, htakes⟩
    refine ⟨_, ⟨hle, rfl⟩, List.forall₂_iff_get.mpr ⟨?_, fun i hi hj => ?_⟩⟩
    · rw [List.length_append, List.length_map, List.length_replicate]
      omega
    · obtain ⟨_, hfound⟩ := List.getElem?_eq_some_iff.mp (@getElem?_padded items _ _ hi)
      rw [List.get_eq_getElem, List.get_eq_getElem, hfound]
      exact Field.reads_iff.mpr (htakes i _ (List.getElem?_eq_getElem hi))

theorem read_iff {v : JsonValue} : r.read v = some s ↔ r.Describes v s := by
  cases v with
  | object members => exact read_object_iff
  | array items => exact read_array_iff
  | _ =>
    rw [r.read_eq_some_iff]
    exact ⟨fun ⟨_, h, _⟩ => (nomatch h), nofun⟩

theorem describes_write (s : S) : r.Describes (r.write s) s := by
  rw [r.write_eq]
  refine ⟨?_, fun f hf => ?_⟩
  · simp only [List.forall_mem_map, List.map_map]
    exact fun _ _ => rfl
  · have hmem : (f.name, f.form.write (f.get s)) ∈
        r.fields.map fun f => (f.name, f.form.write (f.get s)) := List.mem_map_of_mem hf
    have hgiven := given_of_nodup (by rw [List.map_map]; exact r.nodup) hmem
    rw [given_map_toList, hgiven]
    exact f.form.denotes_write (f.get s)

def form (r : Record S) : JsonForm S where
  Denotes := r.Describes
  read := r.read
  write := r.write
  read_eq_some_iff := read_iff
  denotes_write := describes_write
  printable_write s := by
    rw [r.write_eq, JsonValue.printable_ofFields, List.forall_mem_map]
    exact fun f _ => f.form.printable_write (f.get s)

end Record

end SampleCast
