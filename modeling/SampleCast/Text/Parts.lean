/-! Parts of a text.
A text has a separator between its parts, and may have blanks at its ends. Blank are the characters
to which Unicode gives the property White_Space. A text is also divided at positions, which are
counted in the bytes of its UTF-8 form; those inside of a character do not divide it. -/

namespace SampleCast

def splitParts (separator : Char) : List Char → List (List Char)
  | [] => [[]]
  | c :: cs =>
    if c = separator then [] :: splitParts separator cs
    else
      match splitParts separator cs with
      | [] => [[c]]
      | part :: parts => (c :: part) :: parts

def joinParts (separator : Char) : List (List Char) → List Char
  | [] => []
  | [part] => part
  | part :: parts => part ++ separator :: joinParts separator parts

theorem splitParts_ne_nil (separator : Char) (cs : List Char) : splitParts separator cs ≠ [] := by
  match cs with
  | [] => simp [splitParts]
  | c :: cs =>
    rw [splitParts]
    split
    · simp
    · split <;> simp

theorem joinParts_splitParts (separator : Char) (cs : List Char) :
    joinParts separator (splitParts separator cs) = cs := by
  induction cs with
  | nil => rfl
  | cons c cs ih =>
    rw [splitParts]
    obtain ⟨part, parts, h⟩ := List.exists_cons_of_ne_nil (splitParts_ne_nil separator cs)
    rw [h] at ih ⊢
    split
    next hc => simp [joinParts, ih, hc]
    next =>
      cases parts with
      | nil => simpa [joinParts] using ih
      | cons next parts => simpa [joinParts] using ih

def isBlank (c : Char) : Bool :=
  let n := c.toNat
  (0x9 ≤ n && n ≤ 0xd) || n == 0x20 || n == 0x85 || n == 0xa0 || n == 0x1680
    || (0x2000 ≤ n && n ≤ 0x200a) || n == 0x2028 || n == 0x2029 || n == 0x202f || n == 0x205f
    || n == 0x3000

theorem isBlank_of_isWhitespace {c : Char} (h : c.isWhitespace = true) : isBlank c = true := by
  simp only [Char.isWhitespace, Bool.or_eq_true, decide_eq_true_eq] at h
  rcases h with ((h | h) | h) | h <;> subst h <;> decide

def trimBlanks (text : List Char) : List Char :=
  ((text.dropWhile isBlank).reverse.dropWhile isBlank).reverse

def byteLength : List Char → Nat
  | [] => 0
  | c :: cs => c.utf8Size + byteLength cs

/-- The two parts of a text at a position, if it is at the edge of a character. -/
def splitBytes? : Nat → List Char → Option (List Char × List Char)
  | 0, cs => some ([], cs)
  | _ + 1, [] => none
  | n + 1, c :: cs =>
    if c.utf8Size ≤ n + 1 then
      (splitBytes? (n + 1 - c.utf8Size) cs).map fun (before, after) => (c :: before, after)
    else none

theorem splitBytes?_byteLength (cs ds : List Char) :
    splitBytes? (byteLength cs) (cs ++ ds) = some (cs, ds) := by
  induction cs with
  | nil => simp [byteLength, splitBytes?]
  | cons c cs ih =>
    have h := c.utf8Size_pos
    obtain ⟨n, hn⟩ : ∃ n, byteLength (c :: cs) = n + 1 := ⟨c.utf8Size + byteLength cs - 1, by
      simp only [byteLength]
      omega⟩
    rw [hn, List.cons_append, splitBytes?]
    simp only [byteLength] at hn
    rw [if_pos (by omega), show n + 1 - c.utf8Size = byteLength cs by omega, ih]
    rfl

end SampleCast
