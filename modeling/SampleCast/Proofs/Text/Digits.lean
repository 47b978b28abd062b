/-! Numbers and their digits.
The digits of a number are read back to the number, and a run of digits is cut out of a text where
the next character is none. Main statements: `foldl_toDigits`, `takeWhile_of_stops` and
`dropWhile_of_stops`. -/

namespace SampleCast

section

variable {b n : Nat}

theorem forall_mem_toDigits {P : Char → Prop} (hb : 1 < b) (hP : ∀ d, d < b → P d.digitChar) :
    ∀ c ∈ Nat.toDigits b n, P c := by
  induction n using Nat.strongRecOn with
  | ind n ih =>
    intro c hc
    rw [Nat.toDigits_eq_if hb] at hc
    by_cases hn : n < b
    · rw [if_pos hn, List.mem_singleton] at hc
      exact hc ▸ hP n hn
    · rw [if_neg hn, List.mem_append, List.mem_singleton] at hc
      rcases hc with hc | rfl
      · exact ih (n / b) (Nat.div_lt_self (by omega) hb) c hc
      · exact hP _ (Nat.mod_lt n (by omega))

theorem foldl_toDigits {value : Char → Nat} (hb : 1 < b)
    (hvalue : ∀ d, d < b → value d.digitChar = d) :
    (Nat.toDigits b n).foldl (fun m c => m * b + value c) 0 = n := by
  induction n using Nat.strongRecOn with
  | ind n ih =>
    rw [Nat.toDigits_eq_if hb]
    by_cases hn : n < b
    · rw [if_pos hn, List.foldl_cons, List.foldl_nil, hvalue n hn]
      omega
    · rw [if_neg hn, List.foldl_append, ih (n / b) (Nat.div_lt_self (by omega) hb),
        List.foldl_cons, List.foldl_nil, hvalue _ (Nat.mod_lt n (by omega)), Nat.mul_comm]
      exact Nat.div_add_mod n b

theorem head_toDigits_ne_zero (hb : 1 < b) (hn : 0 < n) (rest : List Char) :
    ∀ more, Nat.toDigits b n ++ rest ≠ '0' :: more := by
  induction n using Nat.strongRecOn generalizing rest with
  | ind n ih =>
    intro more h
    rw [Nat.toDigits_eq_if hb] at h
    by_cases hlt : n < b
    · rw [if_pos hlt, List.singleton_append] at h
      have hzero := Nat.digitChar_eq_zero.mp (List.cons.inj h).1
      omega
    · rw [if_neg hlt, List.append_assoc] at h
      exact ih (n / b) (Nat.div_lt_self hn hb) (Nat.div_pos (by omega) (by omega)) _ more h

end

def Stops (p : Char → Bool) (rest : List Char) : Prop := ∀ c ∈ rest.head?, p c = false

section

variable {p : Char → Bool} {front rest : List Char}

theorem stops_nil : Stops p [] := nofun

theorem stops_cons {c : Char} (h : p c = false) : Stops p (c :: rest) := by
  intro d hd
  rw [List.head?_cons, Option.mem_some] at hd
  exact hd ▸ h

theorem Stops.mono {q : Char → Bool} (h : Stops p rest) (hq : ∀ c, p c = false → q c = false) :
    Stops q rest := fun c hc => hq c (h c hc)

theorem takeWhile_of_stops (hfront : ∀ c ∈ front, p c = true) (hrest : Stops p rest) :
    (front ++ rest).takeWhile p = front := by
  rw [List.takeWhile_append_of_pos hfront]
  cases rest with
  | nil => rw [List.takeWhile_nil, List.append_nil]
  | cons c rest =>
    have hc : p c = false := hrest c rfl
    rw [List.takeWhile_cons_of_neg (by simp [hc]), List.append_nil]

theorem dropWhile_of_stops (hfront : ∀ c ∈ front, p c = true) (hrest : Stops p rest) :
    (front ++ rest).dropWhile p = rest := by
  rw [List.dropWhile_append_of_pos hfront]
  cases rest with
  | nil => rfl
  | cons c rest =>
    have hc : p c = false := hrest c rfl
    rw [List.dropWhile_cons_of_neg (by simp [hc])]

theorem stops_dropWhile_append {c : Char} (hfront : c ∉ front) (hrest : Stops p rest)
    (hc : Stops (· == c) rest) : Stops (· == c) ((front ++ rest).dropWhile p) := by
  induction front with
  | nil =>
    rw [@dropWhile_of_stops p [] rest nofun hrest]
    exact hc
  | cons d front ih =>
    rw [List.cons_append, List.dropWhile_cons]
    split
    · exact ih fun hmem => hfront (List.mem_cons_of_mem d hmem)
    · exact stops_cons (beq_eq_false_iff_ne.mpr fun hd => hfront (hd ▸ List.mem_cons_self ..))

end

end SampleCast
