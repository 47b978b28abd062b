import Mathlib.Data.List.Forall2
import SampleCast.Json.Printer
import SampleCast.Proofs.Json.Reader

/-! Printed values.
What is printed is one of the texts of a value, if its strings are texts and its numbers are whole.
Main statement: `parse?_pretty`. -/

namespace SampleCast

namespace JsonToken

/-- The tokens are spelled so in front of whatever can follow a number. -/
def SpelledAs (tokens : List JsonToken) (s : List Char) : Prop :=
  ∀ more rest, Stops extendsNumber rest → Spells more rest → Spells (tokens ++ more) (s ++ rest)

section

variable {tokens more : List JsonToken} {token : JsonToken} {text : Option (List Char)}
  {s t rest blanks : List Char}

theorem Spells.after_blanks (hb : ∀ c ∈ blanks, isBlank c = true) (h : Spells tokens s) :
    Spells tokens (blanks ++ s) := by
  cases h with
  | nil hs => exact .nil (List.forall_mem_append.mpr ⟨hb, hs⟩)
  | cons hs htoken hend h =>
    rw [← List.append_assoc]
    exact .cons (List.forall_mem_append.mpr ⟨hb, hs⟩) htoken hend h

theorem TokenText.spelledAs (h : TokenText token s) : SpelledAs [token] s :=
  fun _ _ hend hrest => @Spells.cons token _ [] s _ nofun h (fun _ _ => hend) hrest

theorem SpelledAs.spells (h : SpelledAs tokens s) : Spells tokens s := by
  have hs := h [] [] stops_nil (.nil (List.forall_mem_nil _))
  rwa [List.append_nil, List.append_nil] at hs

theorem SpelledAs.after_blanks (hb : ∀ c ∈ blanks, isBlank c = true) (h : SpelledAs tokens s) :
    SpelledAs tokens (blanks ++ s) := by
  intro more rest hend hrest
  rw [List.append_assoc]
  exact (h more rest hend hrest).after_blanks hb

theorem SpelledAs.append (hs : SpelledAs tokens s) (ht : SpelledAs more t)
    (hend : ∀ rest, Stops extendsNumber (t ++ rest)) : SpelledAs (tokens ++ more) (s ++ t) := by
  intro others rest hother hrest
  rw [List.append_assoc, List.append_assoc]
  exact hs _ _ (hend rest) (ht others rest hother hrest)

theorem SpelledAs.after_mark (hs : TokenText token s) (hnumber : ∀ n, token ≠ .number n)
    (h : SpelledAs tokens t) : SpelledAs (token :: tokens) (s ++ t) := by
  intro more rest hend hrest
  rw [List.append_assoc]
  exact @Spells.cons token _ [] s _ nofun hs (fun n hn => absurd hn (hnumber n))
    (h more rest hend hrest)

theorem hexUnit?_hexDigits {n : Nat} (h : n < 32) :
    hexUnit? '0' '0' (Nat.digitChar (n / 16)) (Nat.digitChar (n % 16)) = some n ∧
      isHighSurrogate n = false ∧ isLowSurrogate n = false := by
  have hall : ∀ n, n < 32 →
      hexUnit? '0' '0' (Nat.digitChar (n / 16)) (Nat.digitChar (n % 16)) = some n ∧
        isHighSurrogate n = false ∧ isLowSurrogate n = false := by decide
  exact hall n h

theorem stringText_escape (c : Char) (h : StringText text s) :
    StringText (text.map (c :: ·)) (JsonValue.escape c ++ s) := by
  unfold JsonValue.escape
  split_ifs with hquote hslash hb hf hn hr ht hc
  · exact .escaped (congrArg some hquote.symm) h
  · exact .escaped (congrArg some hslash.symm) h
  · exact .escaped (congrArg some hb.symm) h
  · exact .escaped (congrArg some hf.symm) h
  · exact .escaped (congrArg some hn.symm) h
  · exact .escaped (congrArg some hr.symm) h
  · exact .escaped (congrArg some ht.symm) h
  · have hlt : c.toNat < 32 := hc
    obtain ⟨hdigits, hhigh, hlow⟩ := hexUnit?_hexDigits hlt
    have hunit := StringText.unit ⟨hdigits⟩ hhigh hlow h
    rwa [Char.ofNat_toNat] at hunit
  · exact .plain hquote hslash hc h

theorem stringText_flatMap_escape (text : List Char) :
    StringText (some text) (text.flatMap JsonValue.escape) := by
  induction text with
  | nil => exact .nil
  | cons c text ih => exact stringText_escape c ih

theorem tokenText_quoted (text : List Char) :
    TokenText (.string (some text)) (JsonValue.quoted text) :=
  .string (stringText_flatMap_escape text)

theorem tokenText_digits (negative : Bool) (n : Nat) :
    TokenText (.number (.whole negative n)) (JsonValue.digits (.whole negative n)) := by
  have hnumber := @NumberText.mk negative _ _ n _ _ .absent .absent
  rw [List.append_nil, List.append_nil] at hnumber
  rw [JsonValue.digits, Nat.toString_eq_ofList_toDigits, String.toList_ofList]
  exact .number hnumber

theorem isBlank_lineBreak (level : Nat) : ∀ c ∈ JsonValue.lineBreak level, isBlank c = true := by
  intro c hc
  rcases List.mem_cons.mp hc with rfl | hc
  · rfl
  · rw [List.eq_of_mem_replicate hc]
    rfl

end

section

variable {level : Nat} {entries : List (List JsonToken)} {texts : List (List Char)}

theorem spelledAs_lines (h : List.Forall₂ SpelledAs entries texts) (hne : texts ≠ []) :
    SpelledAs ([.comma].intercalate entries) (JsonValue.lines level texts) := by
  induction h with
  | nil => exact absurd rfl hne
  | @cons entry text entries texts hentry hmore ih =>
    have hfirst := hentry.after_blanks (isBlank_lineBreak level)
    cases hmore with
    | nil =>
      rw [List.intercalate_singleton, JsonValue.lines]
      exact hfirst
    | cons hnext hmore =>
      rw [List.intercalate_cons_cons, JsonValue.lines, List.append_assoc]
      · exact hfirst.append ((ih nofun).after_mark .comma nofun) fun _ => stops_cons (by decide)
      · exact nofun

theorem spelledAs_bracketed {opening closing : JsonToken} {o c : Char}
    (ho : TokenText opening [o]) (hc : TokenText closing [c]) (hnumber : ∀ n, opening ≠ .number n)
    (h : List.Forall₂ SpelledAs entries texts) :
    SpelledAs (opening :: ([.comma].intercalate entries ++ [closing]))
      (JsonValue.bracketed level o c texts) := by
  cases h with
  | nil => exact hc.spelledAs.after_mark ho hnumber
  | cons hentry hmore =>
    rw [JsonValue.bracketed, List.cons_append, List.cons_append, List.append_assoc]
    · have hlines := @spelledAs_lines (level + 1) _ _ (.cons hentry hmore) nofun
      have hend := hc.spelledAs.after_blanks (isBlank_lineBreak level)
      exact (hlines.append hend fun _ => stops_cons (by decide)).after_mark ho hnumber
    · exact nofun

end

end JsonToken

namespace JsonValue

mutual

/-- The strings are texts, and the numbers are whole. -/
def Printable : JsonValue → Prop
  | .number n => n ≠ .inexact
  | .string text => text.isSome
  | .array items => PrintableItems items
  | .object members => PrintableMembers members
  | _ => True

def PrintableItems : List JsonValue → Prop
  | [] => True
  | v :: more => Printable v ∧ PrintableItems more

def PrintableMembers : List (Option (List Char) × JsonValue) → Prop
  | [] => True
  | (key, v) :: more => key.isSome ∧ Printable v ∧ PrintableMembers more

end

open JsonToken

mutual

theorem spelledAs_print (v : JsonValue) (level : Nat) (h : v.Printable) :
    SpelledAs v.tokens (print level v) := by
  match v with
  | .null => exact TokenText.null.spelledAs
  | .bool b => exact (TokenText.bool b).spelledAs
  | .number (.whole negative n) => exact (tokenText_digits negative n).spelledAs
  | .number .inexact => exact absurd rfl h
  | .string (some text) => exact (tokenText_quoted text).spelledAs
  | .string none => cases h
  | .array items =>
    exact spelledAs_bracketed .openArray .closeArray nofun
      (spelledAs_printItems items (level + 1) h)
  | .object members =>
    exact spelledAs_bracketed .openObject .closeObject nofun
      (spelledAs_printMembers members (level + 1) h)

theorem spelledAs_printItems (items : List JsonValue) (level : Nat) (h : PrintableItems items) :
    List.Forall₂ SpelledAs (itemTokens items) (printItems level items) := by
  match items with
  | [] => exact .nil
  | v :: more =>
    exact .cons (spelledAs_print v level h.1) (spelledAs_printItems more level h.2)

theorem spelledAs_printMembers (members : List (Option (List Char) × JsonValue)) (level : Nat)
    (h : PrintableMembers members) :
    List.Forall₂ SpelledAs (memberTokens members) (printMembers level members) := by
  match members with
  | [] => exact .nil
  | (none, v) :: more => cases h.1
  | (some key, v) :: more =>
    have hblank : ∀ c ∈ [' '], isBlank c = true := List.forall_mem_singleton.mpr rfl
    have hvalue := (spelledAs_print v level h.2.1).after_blanks hblank
    have hentry := (hvalue.after_mark .colon nofun).after_mark (tokenText_quoted key) nofun
    exact .cons hentry (spelledAs_printMembers more level h.2.2)

end

theorem parse?_pretty {v : JsonValue} (h : v.Printable) : parse? v.pretty = some v :=
  parse?_of_spells (spelledAs_print v 0 h).spells

end JsonValue
end SampleCast
