import SampleCast.Json.Token
import SampleCast.Proofs.Text.Digits

/-! The texts of a list of JSON tokens.
A token may be spelled in many ways: a number with a fraction or an exponent, a string with escapes.
Between tokens there are blanks, as many as one likes, and a number ends where the next character
cannot be part of it. Main statement: `scan_of_spells`, that every spelling is scanned to its
tokens. -/

namespace SampleCast.JsonToken

structure Digits (s : List Char) : Prop where
  ne_nil : s ≠ []
  digits : ∀ c ∈ s, isDigit c = true

inductive FractionText : Bool → List Char → Prop
  | absent : FractionText false []
  | present {s : List Char} (h : Digits s) : FractionText true ('.' :: s)

inductive ExponentText : Bool → List Char → Prop
  | absent : ExponentText false []
  | present {e : Char} {sign s : List Char} (he : e = 'e' ∨ e = 'E')
      (hsign : sign = [] ∨ sign = ['+'] ∨ sign = ['-']) (h : Digits s) :
      ExponentText true (e :: (sign ++ s))

/-- The whole part is a decimal number without leading zeros. -/
inductive NumberText : JsonNumber → List Char → Prop
  | mk {negative fraction exponent : Bool} {n : Nat} {s t : List Char}
      (hs : FractionText fraction s) (ht : ExponentText exponent t) :
      NumberText (if fraction || exponent then .inexact else .whole negative n)
        ((if negative then ['-'] else []) ++ (Nat.toDigits 10 n ++ (s ++ t)))

inductive UnitText : Nat → List Char → Prop
  | mk {a b c d : Char} {u : Nat} (h : hexUnit? a b c d = some u) :
      UnitText u ['\\', 'u', a, b, c, d]

/-- What stands between the quotes. A half of a surrogate pair is no character, and a string that
has one is not a text. -/
inductive StringText : Option (List Char) → List Char → Prop
  | nil : StringText (some []) []
  | plain {c : Char} {t : Option (List Char)} {s : List Char} (hquote : c ≠ '"') (hslash : c ≠ '\\')
      (hc : ¬ c < ' ') (h : StringText t s) : StringText (t.map (c :: ·)) (c :: s)
  | escaped {e c : Char} {t : Option (List Char)} {s : List Char} (he : escaped? e = some c)
      (h : StringText t s) : StringText (t.map (c :: ·)) ('\\' :: e :: s)
  | unit {u : Nat} {t : Option (List Char)} {s x : List Char} (hu : UnitText u x)
      (hhigh : isHighSurrogate u = false) (hlow : isLowSurrogate u = false) (h : StringText t s) :
      StringText (t.map (Char.ofNat u :: ·)) (x ++ s)
  | pair {u v : Nat} {t : Option (List Char)} {s x y : List Char} (hu : UnitText u x)
      (hv : UnitText v y) (hhigh : isHighSurrogate u = true) (hlow : isLowSurrogate v = true)
      (h : StringText t s) :
      StringText (t.map (Char.ofNat (0x10000 + (u - 0xD800) * 0x400 + (v - 0xDC00)) :: ·))
        (x ++ (y ++ s))
  | low {u : Nat} {t : Option (List Char)} {s x : List Char} (hu : UnitText u x)
      (hlow : isLowSurrogate u = true) (h : StringText t s) : StringText none (x ++ s)
  | high {u : Nat} {t : Option (List Char)} {s x : List Char} (hu : UnitText u x)
      (hhigh : isHighSurrogate u = true)
      (hnext : ∀ v y, UnitText v y → isLowSurrogate v = true → ¬ y <+: s) (h : StringText t s) :
      StringText none (x ++ s)

inductive TokenText : JsonToken → List Char → Prop
  | openObject : TokenText .openObject ['\x7b']
  | closeObject : TokenText .closeObject ['\x7d']
  | openArray : TokenText .openArray ['[']
  | closeArray : TokenText .closeArray [']']
  | colon : TokenText .colon [':']
  | comma : TokenText .comma [',']
  | null : TokenText .null "null".toList
  | bool (b : Bool) : TokenText (.bool b) (if b then "true" else "false").toList
  | number {n : JsonNumber} {s : List Char} (h : NumberText n s) : TokenText (.number n) s
  | string {t : Option (List Char)} {s : List Char} (h : StringText t s) :
      TokenText (.string t) ('"' :: (s ++ ['"']))

def extendsNumber (c : Char) : Bool := isDigit c || c == '.' || c == 'e' || c == 'E'

/-- A text of these tokens, with blanks between them and around them. -/
inductive Spells : List JsonToken → List Char → Prop
  | nil {blanks : List Char} (hb : ∀ c ∈ blanks, isBlank c = true) : Spells [] blanks
  | cons {token : JsonToken} {tokens : List JsonToken} {blanks s rest : List Char}
      (hb : ∀ c ∈ blanks, isBlank c = true) (hs : TokenText token s)
      (hend : ∀ n, token = .number n → Stops extendsNumber rest) (h : Spells tokens rest) :
      Spells (token :: tokens) (blanks ++ (s ++ rest))

section

variable {n u v : Nat} {b : Bool} {s t x rest : List Char} {text : Option (List Char)}

theorem isDigit_digitChar {d : Nat} (h : d < 10) : isDigit d.digitChar = true := by
  have hall : ∀ d, d < 10 → isDigit d.digitChar = true := by decide
  exact hall d h

theorem digits_toDigits (n : Nat) : Digits (Nat.toDigits 10 n) :=
  ⟨Nat.toDigits_ne_nil, forall_mem_toDigits (by decide) fun _ => isDigit_digitChar⟩

theorem digitsValue_toDigits (n : Nat) : digitsValue (Nat.toDigits 10 n) = n :=
  foldl_toDigits (by decide) (by decide)

theorem scanDigits_append (h : Digits s) (hrest : Stops isDigit rest) :
    scanDigits (s ++ rest) = some (s, rest) := by
  obtain ⟨c, more, rfl⟩ := List.exists_cons_of_ne_nil h.ne_nil
  rw [scanDigits, takeWhile_of_stops h.digits hrest, dropWhile_of_stops h.digits hrest]

theorem scanWhole_append (n : Nat) (hrest : Stops isDigit rest) :
    scanWhole (Nat.toDigits 10 n ++ rest) = some (n, rest) := by
  cases n with
  | zero => rfl
  | succ n =>
    have hhead := head_toDigits_ne_zero (b := 10) (n := n + 1) (by decide) (Nat.succ_pos n) rest
    rw [scanWhole]
    · rw [scanDigits_append (digits_toDigits _) hrest, Option.map_some]
      simp only [digitsValue_toDigits]
    · exact hhead

theorem stops_isDigit (h : Stops extendsNumber rest) : Stops isDigit rest := by
  refine h.mono fun c hc => ?_
  simp only [extendsNumber, Bool.or_eq_false_iff] at hc
  exact hc.1.1.1

theorem scanFraction_of_absent (h : Stops (· == '.') rest) :
    scanFraction rest = some (false, rest) := by
  unfold scanFraction
  split
  next more => exact absurd (h '.' rfl) (by decide)
  next => rfl

theorem scanExponent_of_absent (h : Stops extendsNumber rest) :
    scanExponent rest = some (false, rest) := by
  unfold scanExponent
  split
  next more => exact absurd (h 'e' rfl) (by decide)
  next more => exact absurd (h 'E' rfl) (by decide)
  next => rfl

theorem skipSign_append {sign : List Char} (hsign : sign = [] ∨ sign = ['+'] ∨ sign = ['-'])
    (h : Digits s) (rest : List Char) : skipSign (sign ++ (s ++ rest)) = s ++ rest := by
  rcases hsign with rfl | rfl | rfl
  · obtain ⟨c, more, rfl⟩ := List.exists_cons_of_ne_nil h.ne_nil
    have hc : isDigit c = true := h.digits c (List.mem_cons_self ..)
    rw [List.nil_append, List.cons_append, skipSign]
    · rintro _ ⟨⟩
      exact absurd hc (by decide)
    · rintro _ ⟨⟩
      exact absurd hc (by decide)
  · rfl
  · rfl

theorem scanFraction_append (h : FractionText b s) (hdigit : Stops isDigit rest)
    (hpoint : Stops (· == '.') rest) : scanFraction (s ++ rest) = some (b, rest) := by
  cases h with
  | absent => exact scanFraction_of_absent hpoint
  | present hs =>
    rw [List.cons_append, scanFraction, scanDigits_append hs hdigit]
    rfl

theorem scanExponent_append (h : ExponentText b t) (hrest : Stops extendsNumber rest) :
    scanExponent (t ++ rest) = some (b, rest) := by
  cases h with
  | absent => exact scanExponent_of_absent hrest
  | @present e sign s he hsign hs =>
    have hdigits := scanDigits_append hs (stops_isDigit hrest)
    rw [List.cons_append, List.append_assoc]
    rcases he with rfl | rfl
    · rw [scanExponent, skipSign_append hsign hs, hdigits]
      rfl
    · rw [scanExponent, skipSign_append hsign hs, hdigits]
      rfl

theorem ExponentText.stops (h : ExponentText b t) (hrest : Stops extendsNumber rest) :
    Stops isDigit (t ++ rest) ∧ Stops (· == '.') (t ++ rest) := by
  cases h with
  | absent =>
    refine ⟨stops_isDigit hrest, hrest.mono fun c hc => ?_⟩
    simp only [extendsNumber, Bool.or_eq_false_iff] at hc
    exact hc.1.1.2
  | present he hsign hs =>
    rcases he with rfl | rfl
    · exact ⟨stops_cons (by decide), stops_cons (by decide)⟩
    · exact ⟨stops_cons (by decide), stops_cons (by decide)⟩

theorem FractionText.stops (h : FractionText b s) (hrest : Stops isDigit rest) :
    Stops isDigit (s ++ rest) := by
  cases h with
  | absent => exact hrest
  | present hs => exact stops_cons (by decide)

theorem scanUnsigned_append {negative fraction exponent : Bool} (n : Nat)
    (hs : FractionText fraction s) (ht : ExponentText exponent t)
    (hrest : Stops extendsNumber rest) :
    scanUnsigned negative (Nat.toDigits 10 n ++ (s ++ t) ++ rest) =
      some (if fraction || exponent then .inexact else .whole negative n, rest) := by
  obtain ⟨hdigit, hpoint⟩ := ht.stops hrest
  rw [List.append_assoc, List.append_assoc, scanUnsigned, scanWhole_append n (hs.stops hdigit)]
  simp only [Option.bind_eq_bind, Option.bind_some, scanFraction_append hs hdigit hpoint,
    scanExponent_append ht hrest]

theorem head_toDigits (n : Nat) (rest : List Char) :
    ∃ c more, Nat.toDigits 10 n ++ rest = c :: more ∧ isDigit c = true := by
  obtain ⟨c, more, hdigits⟩ := List.exists_cons_of_ne_nil (digits_toDigits n).ne_nil
  refine ⟨c, more ++ rest, by rw [hdigits, List.cons_append], ?_⟩
  exact (digits_toDigits n).digits c (hdigits ▸ List.mem_cons_self ..)

theorem NumberText.head {number : JsonNumber} (h : NumberText number s) :
    ∃ c more, s = c :: more ∧ (c = '-' ∨ isDigit c = true) := by
  obtain @⟨negative, fraction, exponent, n, s, t, hs, ht⟩ := h
  cases negative with
  | true => exact ⟨'-', _, rfl, .inl rfl⟩
  | false =>
    obtain ⟨c, more, hhead, hc⟩ := head_toDigits n (s ++ t)
    exact ⟨c, more, hhead, .inr hc⟩

theorem scanNumber_append {number : JsonNumber} (h : NumberText number s)
    (hrest : Stops extendsNumber rest) : scanNumber (s ++ rest) = some (number, rest) := by
  obtain @⟨negative, fraction, exponent, n, s, t, hs, ht⟩ := h
  have hscan := @scanUnsigned_append s t rest negative _ _ n hs ht hrest
  cases negative with
  | true => exact hscan
  | false =>
    obtain ⟨c, more, hhead, hc⟩ := head_toDigits n ((s ++ t) ++ rest)
    rw [← List.append_assoc] at hhead
    simp only [Bool.false_eq_true, if_false, List.nil_append] at hscan ⊢
    rw [hhead] at hscan ⊢
    rw [scanNumber, hscan]
    rintro _ ⟨⟩
    exact absurd hc (by decide)

theorem push_some (c : Char) (text : Option (List Char)) (rest : List Char) :
    push (some c) (text, rest) = (text.map (c :: ·), rest) := by
  cases text <;> rfl

theorem push_none (text : Option (List Char)) (rest : List Char) :
    push none (text, rest) = (none, rest) := by
  cases text <;> rfl

theorem scanString_plain {c : Char} (hquote : c ≠ '"') (hslash : c ≠ '\\') (hc : ¬ c < ' ')
    (cs : List Char) : scanString (c :: cs) = (scanString cs).map (push (some c)) := by
  rw [scanString]
  · simp [hslash, hc]
  · exact hquote
  · exact fun _ _ _ _ _ hcs _ => hslash hcs
  · exact fun _ _ hcs _ => hslash hcs

theorem scanString_escaped {e c : Char} (he : escaped? e = some c) (cs : List Char) :
    scanString ('\\' :: e :: cs) = (scanString cs).map (push (some c)) := by
  have hunit : e ≠ 'u' := by
    rintro rfl
    cases he
  rw [scanString]
  · simp only [he]
  · exact fun _ _ _ _ _ hcs _ => hunit hcs

theorem scanString_unit (hu : UnitText u x) (hhigh : isHighSurrogate u = false)
    (cs : List Char) : scanString (x ++ cs) =
      (scanString cs).map (push (if isLowSurrogate u then none else some (Char.ofNat u))) := by
  obtain @⟨a, b, c, d, u, h⟩ := hu
  simp only [List.cons_append, List.nil_append]
  rw [scanString]
  simp only [h, hhigh, Bool.false_eq_true, if_false]
  split <;> rfl

theorem scanString_pair {y : List Char} (hu : UnitText u x) (hv : UnitText v y)
    (hhigh : isHighSurrogate u = true) (hlow : isLowSurrogate v = true) (cs : List Char) :
    scanString (x ++ (y ++ cs)) = (scanString cs).map
      (push (some (Char.ofNat (0x10000 + (u - 0xD800) * 0x400 + (v - 0xDC00))))) := by
  obtain @⟨a, b, c, d, u, h⟩ := hu
  obtain @⟨a', b', c', d', v, h'⟩ := hv
  simp only [List.cons_append, List.nil_append]
  rw [scanString]
  simp only [h, hhigh, if_true, h', hlow]

theorem scanString_high {cs : List Char} (hu : UnitText u x) (hhigh : isHighSurrogate u = true)
    (hnext : ∀ a b c d more, cs = '\\' :: 'u' :: a :: b :: c :: d :: more →
      ∃ v, hexUnit? a b c d = some v ∧ isLowSurrogate v = false) :
    scanString (x ++ cs) = (scanString cs).map (push none) := by
  obtain @⟨a, b, c, d, u, h⟩ := hu
  simp only [List.cons_append, List.nil_append]
  rw [scanString]
  simp only [h, hhigh, if_true]
  split
  next a' b' c' d' more =>
    obtain ⟨v, hv, hlow⟩ := hnext a' b' c' d' more rfl
    simp only [hv, hlow, Bool.false_eq_true, if_false]
  next => rfl

theorem StringText.opening (h : StringText text s) {a b c d : Char} {more : List Char}
    (hs : s ++ '"' :: rest = '\\' :: 'u' :: a :: b :: c :: d :: more) :
    ∃ v, UnitText v ['\\', 'u', a, b, c, d] ∧ ['\\', 'u', a, b, c, d] <+: s := by
  have hunit : ∀ {w : Nat} {x y : List Char}, UnitText w x →
      (x ++ y) ++ '"' :: rest = '\\' :: 'u' :: a :: b :: c :: d :: more →
      ∃ v, UnitText v ['\\', 'u', a, b, c, d] ∧ ['\\', 'u', a, b, c, d] <+: x ++ y := by
    intro w x y hw heq
    obtain @⟨a', b', c', d', w, h'⟩ := hw
    simp only [List.cons_append, List.nil_append, List.cons.injEq, true_and] at heq
    obtain ⟨rfl, rfl, rfl, rfl, -⟩ := heq
    exact ⟨w, ⟨h'⟩, y, rfl⟩
  cases h with
  | nil => cases hs
  | plain hquote hslash hc h => exact absurd (List.cons.inj hs).1 hslash
  | escaped he h =>
    obtain ⟨-, htail⟩ := List.cons.inj hs
    rw [(List.cons.inj htail).1] at he
    cases he
  | unit hu hhigh hlow h => exact hunit hu hs
  | pair hu hv hhigh hlow h => exact hunit hu hs
  | low hu hlow h => exact hunit hu hs
  | high hu hhigh hnext h => exact hunit hu hs

theorem scanString_append (h : StringText text s) (rest : List Char) :
    scanString (s ++ '"' :: rest) = some (text, rest) := by
  induction h with
  | nil => rw [List.nil_append, scanString]
  | plain hquote hslash hc h ih =>
    rw [List.cons_append, scanString_plain hquote hslash hc, ih, Option.map_some, push_some]
  | escaped he h ih =>
    rw [List.cons_append, List.cons_append, scanString_escaped he, ih, Option.map_some, push_some]
  | unit hu hhigh hlow h ih =>
    rw [List.append_assoc, scanString_unit hu hhigh, ih, Option.map_some, hlow,
      if_neg Bool.false_ne_true, push_some]
  | pair hu hv hhigh hlow h ih =>
    rw [List.append_assoc, List.append_assoc, scanString_pair hu hv hhigh hlow, ih,
      Option.map_some, push_some]
  | @low u t s x hu hlow h ih =>
    have hhigh : isHighSurrogate u = false := by
      simp only [isHighSurrogate, isLowSurrogate, Bool.and_eq_true, decide_eq_true_eq,
        Bool.and_eq_false_iff, decide_eq_false_iff_not] at hlow ⊢
      omega
    rw [List.append_assoc, scanString_unit hu hhigh, ih, Option.map_some, hlow, if_pos rfl,
      push_none]
  | high hu hhigh hnext h ih =>
    rw [List.append_assoc, scanString_high hu hhigh, ih, Option.map_some, push_none]
    intro a b c d more hs
    obtain ⟨v, hv, hprefix⟩ := h.opening hs
    obtain ⟨hunit⟩ := id hv
    refine ⟨v, hunit, Bool.eq_false_iff.mpr fun hlow => hnext v _ hv hlow hprefix⟩

theorem scanOne_of_number {c : Char} (hc : c = '-' ∨ isDigit c = true) (cs : List Char) :
    scanOne (c :: cs) = (scanNumber (c :: cs)).map fun (n, rest) => (.number n, rest) := by
  unfold scanOne
  split
  case h_11 => rfl
  all_goals
    rename_i hcs
    cases hcs
    exact absurd hc (by decide)

theorem scanOne_append {token : JsonToken} (h : TokenText token s)
    (hrest : ∀ n, token = .number n → Stops extendsNumber rest) :
    scanOne (s ++ rest) = some (token, rest) := by
  cases h with
  | openObject => rfl
  | closeObject => rfl
  | openArray => rfl
  | closeArray => rfl
  | colon => rfl
  | comma => rfl
  | null => rfl
  | bool b => cases b <;> rfl
  | number h =>
    obtain ⟨c, more, rfl, hc⟩ := h.head
    have hscan := scanNumber_append h (hrest _ rfl)
    rw [List.cons_append] at hscan ⊢
    rw [scanOne_of_number hc, hscan]
    rfl
  | string h =>
    rw [List.cons_append, List.append_assoc, List.singleton_append, scanOne,
      scanString_append h rest]
    rfl

theorem TokenText.head {token : JsonToken} (h : TokenText token s) :
    ∃ c more, s = c :: more ∧ isBlank c = false := by
  cases h with
  | number h =>
    obtain ⟨c, more, rfl, hc⟩ := h.head
    refine ⟨c, more, rfl, ?_⟩
    rcases hc with rfl | hc
    · decide
    · rw [Bool.eq_false_iff]
      intro hblank
      simp only [isBlank, Bool.or_eq_true, beq_iff_eq] at hblank
      rcases hblank with ((rfl | rfl) | rfl) | rfl <;> exact absurd hc (by decide)
  | bool b => cases b <;> exact ⟨_, _, rfl, by decide⟩
  | _ => exact ⟨_, _, rfl, by decide⟩

theorem scanWith_of_spells {tokens : List JsonToken} (h : Spells tokens s) {fuel : Nat}
    (hfuel : s.length < fuel) : scanWith fuel s = some tokens := by
  induction h generalizing fuel with
  | nil hb =>
    obtain ⟨fuel, rfl⟩ := Nat.exists_eq_add_one.mpr (Nat.zero_lt_of_lt hfuel)
    have hdrop := dropWhile_of_stops hb stops_nil
    rw [List.append_nil] at hdrop
    rw [scanWith, hdrop]
  | @cons token tokens blanks s rest hb hs hend h ih =>
    obtain ⟨fuel, rfl⟩ := Nat.exists_eq_add_one.mpr (Nat.zero_lt_of_lt hfuel)
    obtain ⟨c, more, rfl, hc⟩ := hs.head
    have hscan := scanOne_append hs hend
    have hdrop := dropWhile_of_stops hb (@stops_cons _ (more ++ rest) c hc)
    simp only [List.length_append, List.length_cons] at hfuel
    have hmore : scanWith fuel rest = some tokens := ih (by omega)
    rw [List.cons_append] at hscan ⊢
    rw [scanWith, hdrop]
    simp only [hscan, hmore, Option.map_some]

theorem scan_of_spells {tokens : List JsonToken} (h : Spells tokens s) :
    scan s = some tokens :=
  scanWith_of_spells h (Nat.lt_succ_self _)

end

end SampleCast.JsonToken
