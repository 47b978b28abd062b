/-! Texts that are safe to show on a terminal.
A terminal obeys the bell, the backspace, the form feed, the escape and the delete character, and
the control characters that follow ASCII. They are shown as escape sequences in letters that it does
not obey. Tabs and ends of lines are kept, and so is a backslash. -/

namespace SampleCast.Terminal

def isCommand (c : Char) : Bool :=
  [0x07, 0x08, 0x0c, 0x1b, 0x7f].contains c.toNat || (0x80 ≤ c.toNat && c.toNat ≤ 0x9f)

def shown (c : Char) : List Char :=
  let digits := [Nat.digitChar (c.toNat / 16), Nat.digitChar (c.toNat % 16)]
  if !isCommand c then [c]
  else if c.toNat < 0x80 then '\\' :: 'x' :: digits
  else '\\' :: 'u' :: '\x7b' :: digits ++ ['\x7d']

def escape (text : String) : String := String.ofList (text.toList.flatMap shown)

theorem not_isCommand_digitChar (n : Nat) : isCommand (Nat.digitChar n) = false := by
  simp only [Nat.digitChar, apply_ite isCommand]
  simp [isCommand]

theorem not_isCommand_shown {c d : Char} (h : d ∈ shown c) : isCommand d = false := by
  unfold shown at h
  split at h
  · rename_i hc
    rw [List.mem_singleton] at h
    simpa [h] using hc
  · split at h <;> simp only [List.cons_append, List.nil_append, List.mem_cons,
      List.not_mem_nil, or_false] at h
    · rcases h with rfl | rfl | rfl | rfl
      · rfl
      · rfl
      · exact not_isCommand_digitChar _
      · exact not_isCommand_digitChar _
    · rcases h with rfl | rfl | rfl | rfl | rfl | rfl
      · rfl
      · rfl
      · rfl
      · exact not_isCommand_digitChar _
      · exact not_isCommand_digitChar _
      · rfl

/-- Nothing that is shown is obeyed. -/
theorem not_isCommand_escape {text : String} {d : Char} (h : d ∈ (escape text).toList) :
    isCommand d = false := by
  rw [escape, String.toList_ofList, List.mem_flatMap] at h
  obtain ⟨c, _, hd⟩ := h
  exact not_isCommand_shown hd

end SampleCast.Terminal
