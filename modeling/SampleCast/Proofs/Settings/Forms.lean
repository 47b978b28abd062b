import SampleCast.Proofs.Address
import SampleCast.Proofs.Json.Printer
import SampleCast.Settings.Source

/-! How the values of settings are spelled in JSON.
A form says which JSON values stand for a value of the type, with a reader that accepts these and no
others, and the one of them that is printed. Main definitions: `JsonForm`, and the forms of words,
integers, flags, addresses and pacings. -/

namespace SampleCast

structure JsonForm (α : Type) where
  Denotes : JsonValue → α → Prop
  read : JsonValue → Option α
  write : α → JsonValue
  read_eq_some_iff : ∀ {v x}, read v = some x ↔ Denotes v x
  denotes_write : ∀ x, Denotes (write x) x
  printable_write : ∀ x, (write x).Printable

namespace JsonValue

section

variable {v : JsonValue} {limit n : Nat} {i : Int}

theorem printable_ofNat (n : Nat) : (ofNat n).Printable := nofun

theorem printable_ofInt (i : Int) : (ofInt i).Printable := nofun

theorem printable_ofText (s : String) : (ofText s).Printable := rfl

theorem nat?_eq_some_iff : v.nat? limit = some n ↔ v = ofNat n ∧ n ≤ limit := by
  constructor
  · intro h
    unfold nat? at h
    split at h
    next m =>
      split at h
      next hm => cases h; exact ⟨rfl, hm⟩
      next => cases h
    next => cases h
  · rintro ⟨rfl, hn⟩
    exact if_pos hn

theorem int?_eq_some_iff :
    v.int? 32 = some i ↔ v = ofInt i ∧ -2147483648 ≤ i ∧ i < 2147483648 := by
  have hpow : Nat.pow 2 (32 - 1) = 2147483648 := rfl
  constructor
  · intro h
    unfold int? at h
    rw [hpow] at h
    split at h
    next n =>
      split at h
      next hn =>
        cases h
        have hsign : ¬ Int.ofNat n < 0 := Int.not_lt.mpr (Int.natCast_nonneg n)
        rw [Int.ofNat_eq_natCast] at hsign ⊢
        exact ⟨by rw [ofInt, decide_eq_false hsign, Int.natAbs_natCast], by omega, by omega⟩
      next => cases h
    next n =>
      split at h
      next hn =>
        cases h
        have hsign : -Int.ofNat n < 0 := by rw [Int.ofNat_eq_natCast]; omega
        rw [Int.ofNat_eq_natCast] at hsign ⊢
        refine ⟨?_, by omega, by omega⟩
        rw [ofInt, decide_eq_true hsign, Int.natAbs_neg, Int.natAbs_natCast]
      next => cases h
    next => cases h
  · rintro ⟨rfl, hlow, hhigh⟩
    cases i with
    | ofNat n =>
      rw [Int.ofNat_eq_natCast] at hhigh
      have hn : n < Nat.pow 2 (32 - 1) := by rw [hpow]; omega
      exact if_pos hn
    | negSucc n =>
      have hn : n + 1 ≠ 0 ∧ n + 1 ≤ Nat.pow 2 (32 - 1) := by
        rw [hpow]
        omega
      have hwrite : ofInt (.negSucc n) = .number (.whole true (n + 1)) := by
        rw [ofInt, decide_eq_true (Int.negSucc_lt_zero n), Int.natAbs_negSucc]
      rw [hwrite]
      exact if_pos hn

theorem text?_bind_eq_some_iff {α : Type} {read : String → Option α} {x : α} :
    v.text?.bind read = some x ↔ ∃ s, v = ofText s ∧ read s = some x := by
  constructor
  · intro h
    obtain ⟨s, hs, hx⟩ := Option.bind_eq_some_iff.mp h
    refine ⟨s, ?_, hx⟩
    unfold text? at hs
    split at hs
    next t =>
      obtain ⟨cs, rfl, rfl⟩ := Option.map_eq_some_iff.mp hs
      rw [ofText, String.toList_ofList]
    next => cases hs
  · rintro ⟨s, rfl, hx⟩
    rw [ofText, text?, Option.map_some, String.ofList_toList, Option.bind_some, hx]

theorem bool?_eq_some_iff {b : Bool} : v.bool? = some b ↔ v = .bool b := by
  constructor
  · intro h
    unfold bool? at h
    split at h
    next => cases h; rfl
    next => cases h
  · rintro rfl
    rfl

end

end JsonValue

namespace JsonForm

def word {α : Type} (limit : Nat) (ofNat : Nat → α) (toNat : α → Nat)
    (hle : ∀ x, toNat x ≤ limit) (hof : ∀ x, ofNat (toNat x) = x)
    (hto : ∀ n, n ≤ limit → toNat (ofNat n) = n) : JsonForm α where
  Denotes v x := v = .ofNat (toNat x)
  read v := (v.nat? limit).map ofNat
  write x := .ofNat (toNat x)
  read_eq_some_iff := by
    intro v x
    simp only [Option.map_eq_some_iff, JsonValue.nat?_eq_some_iff]
    constructor
    · rintro ⟨n, ⟨rfl, hn⟩, rfl⟩
      rw [hto n hn]
    · rintro rfl
      exact ⟨toNat x, ⟨rfl, hle x⟩, hof x⟩
  denotes_write _ := rfl
  printable_write _ := JsonValue.printable_ofNat _

def word16 : JsonForm UInt16 :=
  word (UInt16.size - 1) UInt16.ofNat UInt16.toNat (fun x => Nat.le_pred_of_lt x.toNat_lt)
    (fun _ => UInt16.ofNat_toNat)
    (fun _ hn => UInt16.toNat_ofNat_of_lt' (Nat.lt_of_le_pred (by decide) hn))

def word32 : JsonForm UInt32 :=
  word (UInt32.size - 1) UInt32.ofNat UInt32.toNat (fun x => Nat.le_pred_of_lt x.toNat_lt)
    (fun _ => UInt32.ofNat_toNat)
    (fun _ hn => UInt32.toNat_ofNat_of_lt' (Nat.lt_of_le_pred (by decide) hn))

def word64 : JsonForm UInt64 :=
  word (UInt64.size - 1) UInt64.ofNat UInt64.toNat (fun x => Nat.le_pred_of_lt x.toNat_lt)
    (fun _ => UInt64.ofNat_toNat)
    (fun _ hn => UInt64.toNat_ofNat_of_lt' (Nat.lt_of_le_pred (by decide) hn))

def int32 : JsonForm Int32 where
  Denotes v x := v = .ofInt x.toInt
  read := JsonValue.int32?
  write x := .ofInt x.toInt
  read_eq_some_iff := by
    intro v x
    rw [JsonValue.int32?, Option.map_eq_some_iff]
    constructor
    · rintro ⟨i, hi, rfl⟩
      obtain ⟨rfl, hlow, hhigh⟩ := JsonValue.int?_eq_some_iff.mp hi
      rw [Int32.toInt_ofInt_of_le hlow hhigh]
    · rintro rfl
      exact ⟨x.toInt, JsonValue.int?_eq_some_iff.mpr ⟨rfl, x.le_toInt, x.toInt_lt⟩,
        Int32.ofInt_toInt x⟩
  denotes_write _ := rfl
  printable_write _ := JsonValue.printable_ofInt _

def flag : JsonForm Bool where
  Denotes v b := v = .bool b
  read := JsonValue.bool?
  write := .bool
  read_eq_some_iff := JsonValue.bool?_eq_some_iff
  denotes_write _ := rfl
  printable_write _ := trivial

def address : JsonForm Address where
  Denotes v a := ∃ s, v = .ofText s ∧ Address.parse? s = some a
  read := JsonValue.address?
  write a := .ofText a.text
  read_eq_some_iff := JsonValue.text?_bind_eq_some_iff
  denotes_write a := ⟨a.text, rfl, a.parse?_text⟩
  printable_write _ := JsonValue.printable_ofText _

end JsonForm

namespace Pacing

/-- A pacing is its name, and one with a number an object of one member. One without a number may be
such an object too. -/
def Denotes (v : JsonValue) : Pacing → Prop
  | .none => v = .ofText "none" ∨ v = .ofFields [("none", .null)]
  | .realTime => v = .ofText "real_time" ∨ v = .ofFields [("real_time", .null)]
  | .fixedMillis n => v = .ofFields [("fixed_millis", .ofNat n.toNat)]

theorem ofJson?_eq_some_iff {v : JsonValue} {p : Pacing} : ofJson? v = some p ↔ Denotes v p := by
  constructor
  · intro h
    unfold ofJson? at h
    split at h
    next name =>
      split at h
      next hname => cases h; exact .inl (hname ▸ rfl)
      next =>
        split at h
        next hname => cases h; exact .inl (hname ▸ rfl)
        next => cases h
    next name v =>
      split at h
      next hname =>
        obtain ⟨n, hn, rfl⟩ := Option.map_eq_some_iff.mp h
        obtain rfl := JsonForm.word64.read_eq_some_iff.mp hn
        exact hname ▸ rfl
      next =>
        split at h
        next =>
          split at h
          next hname => cases h; exact .inr (hname ▸ rfl)
          next =>
            split at h
            next hname => cases h; exact .inr (hname ▸ rfl)
            next => cases h
        next => cases h
    next => cases h
  · intro h
    cases p with
    | none => rcases h with rfl | rfl <;> rfl
    | realTime => rcases h with rfl | rfl <;> rfl
    | fixedMillis n =>
      obtain rfl := h
      exact congrArg (Option.map _) (JsonForm.word64.read_eq_some_iff.mpr rfl)

end Pacing

namespace JsonForm

def pacing : JsonForm Pacing where
  Denotes := Pacing.Denotes
  read := Pacing.ofJson?
  write := Pacing.toJson
  read_eq_some_iff := Pacing.ofJson?_eq_some_iff
  denotes_write p := by
    cases p with
    | none => exact .inl rfl
    | realTime => exact .inl rfl
    | fixedMillis n => rfl
  printable_write p := by
    cases p with
    | none => rfl
    | realTime => rfl
    | fixedMillis n => exact ⟨rfl, JsonValue.printable_ofNat _, trivial⟩

end JsonForm

end SampleCast
