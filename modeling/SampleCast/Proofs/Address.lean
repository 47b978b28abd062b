import Mathlib.Algebra.Group.Nat.Defs
import Mathlib.Data.List.Basic
import SampleCast.Address
import SampleCast.Proofs.Text.Digits

/-! Addresses and their text.
The groups of a version 6 address are cut out of its text where a colon or the end follows, and what
its printed form leaves out are zeros. Main statement: `parse?_text`, that the printed form of any
address is read back. -/

namespace SampleCast.Address

abbrev isDigit (radix : Nat) (c : Char) : Bool := (digit? radix c).isSome

def digitValue (radix : Nat) (c : Char) : Nat := (digit? radix c).getD 0

def Readable (radix : Nat) : Prop := ∀ d, d < radix → digit? radix d.digitChar = some d

section

variable {b n most : Nat} {cs rest front more : List Char}

theorem readable_ten : Readable 10 := by
  unfold Readable
  decide

theorem readable_sixteen : Readable 16 := by
  unfold Readable
  decide

theorem readDigits_toDigits (hb : 1 < b) (hread : Readable b) (hmost : 0 < most)
    (hn : n < b ^ most) (hrest : Stops (isDigit b) rest) :
    readDigits b most (Nat.toDigits b n ++ rest) =
      some ((Nat.toDigits b n).map (digitValue b), rest) := by
  have hdigits : ∀ c ∈ Nat.toDigits b n, isDigit b c = true :=
    forall_mem_toDigits hb fun d hd => by rw [isDigit, hread d hd]; rfl
  have hvalues : (Nat.toDigits b n).filterMap (digit? b) =
      (Nat.toDigits b n).map (digitValue b) := by
    rw [← List.filterMap_eq_map]
    refine List.filterMap_congr (forall_mem_toDigits hb fun d hd => ?_)
    rw [Function.comp_apply, digitValue, hread d hd, Option.getD_some]
  have hlength : ((Nat.toDigits b n).map (digitValue b)).length ≤ most := by
    rw [List.length_map]
    exact (Nat.length_toDigits_le_iff hb hmost).mpr hn
  have hne : ((Nat.toDigits b n).map (digitValue b)).isEmpty = false := by
    rw [List.isEmpty_eq_false_iff, ne_eq, List.map_eq_nil_iff]
    exact Nat.toDigits_ne_nil
  rw [readDigits, takeWhile_of_stops hdigits hrest, dropWhile_of_stops hdigits hrest]
  simp only [hvalues, hne, Bool.false_eq_true, false_or, Nat.not_lt.mpr hlength, if_false]

theorem value_toDigits (hb : 1 < b) (hread : Readable b) :
    value b ((Nat.toDigits b n).map (digitValue b)) = n := by
  rw [value, List.foldl_map]
  refine foldl_toDigits hb fun d hd => ?_
  rw [digitValue, hread d hd, Option.getD_some]

theorem head_digits (n : Nat) : ¬ (((Nat.toDigits 10 n).map (digitValue 10)).head? = some 0 ∧
    1 < ((Nat.toDigits 10 n).map (digitValue 10)).length) := by
  rintro ⟨hhead, hlength⟩
  rw [List.length_map, ← Nat.not_le, Nat.length_toDigits_le_iff (by decide) (by decide)] at hlength
  obtain ⟨c, more, hc⟩ := List.exists_cons_of_ne_nil (Nat.toDigits_ne_nil (b := 10) (n := n))
  have hzero : ∀ c ∈ Nat.toDigits 10 n, digitValue 10 c = 0 → c = '0' :=
    forall_mem_toDigits (by decide) (by decide)
  rw [hc, List.map_cons, List.head?_cons, Option.some_inj] at hhead
  have hne := head_toDigits_ne_zero (b := 10) (n := n) (by decide) (by omega) [] more
  rw [hc, List.append_nil, hzero c (hc ▸ List.mem_cons_self ..) hhead] at hne
  exact hne rfl

theorem readByte_append (a : UInt8) (hrest : Stops (isDigit 10) rest) :
    readByte (Nat.toDigits 10 a.toNat ++ rest) = some (a, rest) := by
  have ha := a.toNat_lt
  rw [readByte, readDigits_toDigits (by decide) readable_ten (by decide) (by omega) hrest]
  simp only [Option.bind_eq_bind, Option.bind_some, head_digits, if_false,
    value_toDigits (by decide : 1 < 10) readable_ten, if_pos ha, UInt8.ofNat_toNat]

theorem readGroup_append (g : UInt16) (hrest : Stops (isDigit 16) rest) :
    readGroup (Nat.toDigits 16 g.toNat ++ rest) = some (g, rest) := by
  have hg := g.toNat_lt
  rw [readGroup, readDigits_toDigits (by decide) readable_sixteen (by decide) (by omega) hrest]
  simp only [Option.bind_eq_bind, Option.bind_some,
    value_toDigits (by decide : 1 < 16) readable_sixteen, UInt16.ofNat_toNat]

theorem readV4_append (a b c d : UInt8) (hrest : Stops (isDigit 10) rest) :
    readV4 (v4Text [a, b, c, d] ++ rest) = some ((a, b, c, d), rest) := by
  have hpoint : ∀ more, Stops (isDigit 10) ('.' :: more) := fun _ => stops_cons (by decide)
  simp only [v4Text, List.map_cons, List.map_nil, joinParts, Nat.toString_eq_ofList_toDigits,
    String.toList_ofList, List.append_assoc, List.cons_append, readV4, readByte_append _ (hpoint _),
    readByte_append d hrest, readChar, if_true, Option.bind_eq_bind, Option.bind_some]

theorem rest_of_readByte {a : UInt8} (h : readByte cs = some (a, rest)) :
    rest = cs.dropWhile (isDigit 10) := by
  simp only [readByte, Option.bind_eq_bind, Option.bind_eq_some_iff] at h
  obtain ⟨⟨digits, after⟩, hdigits, h⟩ := h
  have hafter : after = cs.dropWhile (isDigit 10) := by
    rw [readDigits] at hdigits
    split at hdigits
    · cases hdigits
    · exact (Prod.mk.inj (Option.some.inj hdigits)).2.symm
  split at h
  · cases h
  · split at h
    · exact (Prod.mk.inj (Option.some.inj h)).2 ▸ hafter
    · cases h

theorem readChar_eq_none {c : Char} (h : Stops (· == c) cs) : readChar c cs = none := by
  cases cs with
  | nil => rfl
  | cons d cs => exact if_neg fun hd => beq_eq_false_iff_ne.mp (h d rfl) hd.symm

theorem readV4_eq_none (hfront : '.' ∉ front) (hdigit : Stops (isDigit 10) rest)
    (hpoint : Stops (· == '.') rest) : readV4 (front ++ rest) = none := by
  rw [readV4]
  cases hbyte : readByte (front ++ rest) with
  | none => rfl
  | some p =>
    have hrest : p.2 = (front ++ rest).dropWhile (isDigit 10) := rest_of_readByte hbyte
    have hchar := readChar_eq_none (stops_dropWhile_append hfront hdigit hpoint)
    simp only [Option.bind_eq_bind, Option.bind_some, hrest, hchar, Option.bind_none]

end

def AtColon (rest : List Char) : Prop := ∀ c ∈ rest.head?, c = ':'

def AtGap (rest : List Char) : Prop := rest = [] ∨ ∃ more, rest = ':' :: ':' :: more

def moreText (groups : List UInt16) : List Char :=
  groups.flatMap fun g => ':' :: Nat.toDigits 16 g.toNat

section

variable {g : UInt16} {groups : List UInt16} {cs rest : List Char} {first : Bool} {room : Nat}

theorem AtColon.stops (h : AtColon rest) {p : Char → Bool} (hp : p ':' = false) : Stops p rest :=
  fun c hc => h c hc ▸ hp

theorem AtGap.atColon (h : AtGap rest) : AtColon rest := by
  rcases h with rfl | ⟨more, rfl⟩
  · exact nofun
  · rintro c ⟨⟩
    rfl

theorem AtGap.moreText (h : AtGap rest) : AtColon (moreText groups ++ rest) := by
  cases groups with
  | nil => exact h.atColon
  | cons g groups =>
    rintro c ⟨⟩
    rfl

theorem v6Text_cons (g : UInt16) (groups : List UInt16) :
    v6Text (g :: groups) = Nat.toDigits 16 g.toNat ++ moreText groups := by
  induction groups generalizing g with
  | nil => rw [moreText, List.flatMap_nil, List.append_nil]; rfl
  | cons h groups ih =>
    have hjoin : v6Text (g :: h :: groups) =
        Nat.toDigits 16 g.toNat ++ ':' :: v6Text (h :: groups) := rfl
    rw [hjoin, ih h, moreText, moreText, List.flatMap_cons, List.cons_append]

theorem point_not_mem_toDigits (n : Nat) : '.' ∉ Nat.toDigits 16 n := fun hmem =>
  forall_mem_toDigits (P := (· ≠ '.')) (by decide) (by decide) '.' hmem rfl

theorem readV4_group (h : AtColon rest) : readV4 (Nat.toDigits 16 g.toNat ++ rest) = none :=
  readV4_eq_none (point_not_mem_toDigits _) (h.stops (by decide)) (h.stops (by decide))

theorem readV4_atColon (h : AtColon rest) : readV4 rest = none :=
  @readV4_eq_none rest [] nofun (h.stops (by decide)) (h.stops (by decide))

theorem readGroups_group (hcs : nextGroup first cs = some (Nat.toDigits 16 g.toNat ++ rest))
    (hrest : AtColon rest) : readGroups first (room + 1) cs =
      ⟨g :: (readGroups false room rest).groups, (readGroups false room rest).endsInV4,
        (readGroups false room rest).rest⟩ := by
  rw [readGroups, hcs]
  simp only [Option.bind_some, readV4_group hrest, ite_self,
    readGroup_append g (hrest.stops (by decide))]

theorem readGroups_gap (hcs : ∀ next, nextGroup first cs = some next → AtColon next) :
    readGroups first room cs = ⟨[], false, cs⟩ := by
  cases room with
  | zero => rfl
  | succ room =>
    cases hnext : nextGroup first cs with
    | none =>
      rw [readGroups, hnext]
      simp only [Option.bind_none, ite_self]
    | some next =>
      have hcolon := hcs next hnext
      have hgroup : readGroup next = none := by
        have hnone := @takeWhile_of_stops (isDigit 16) [] next nofun (hcolon.stops (by decide))
        rw [List.nil_append] at hnone
        rw [readGroup, readDigits, hnone]
        rfl
      rw [readGroups, hnext]
      simp only [Option.bind_some, readV4_atColon hcolon, hgroup, ite_self]

theorem readGroups_moreText (hroom : groups.length ≤ room) (hrest : AtGap rest) :
    readGroups false room (moreText groups ++ rest) = ⟨groups, false, rest⟩ := by
  induction groups generalizing room with
  | nil =>
    refine readGroups_gap fun next hnext => ?_
    rcases hrest with rfl | ⟨more, rfl⟩
    · cases hnext
    · cases hnext
      rintro c ⟨⟩
      rfl
  | cons g groups ih =>
    obtain ⟨room, rfl⟩ := Nat.exists_eq_add_one.mpr (Nat.zero_lt_of_lt hroom)
    have hnext : nextGroup false (moreText (g :: groups) ++ rest) =
        some (Nat.toDigits 16 g.toNat ++ (moreText groups ++ rest)) := by
      rw [moreText, List.flatMap_cons, List.cons_append, List.cons_append, List.append_assoc]
      rfl
    rw [readGroups_group hnext hrest.moreText, ih (Nat.le_of_succ_le_succ hroom)]

theorem readGroups_v6Text (hroom : groups.length ≤ room) (hrest : AtGap rest) :
    readGroups true room (v6Text groups ++ rest) = ⟨groups, false, rest⟩ := by
  cases groups with
  | nil => exact readGroups_gap fun next hnext => Option.some.inj hnext ▸ hrest.atColon
  | cons g groups =>
    obtain ⟨room, rfl⟩ := Nat.exists_eq_add_one.mpr (Nat.zero_lt_of_lt hroom)
    have hnext : nextGroup true (v6Text (g :: groups) ++ rest) =
        some (Nat.toDigits 16 g.toNat ++ (moreText groups ++ rest)) := by
      rw [v6Text_cons, List.append_assoc]
      rfl
    rw [readGroups_group hnext hrest.moreText,
      readGroups_moreText (Nat.le_of_succ_le_succ hroom) hrest]

end

def Run.Within (r : Run) (groups : List UInt16) : Prop :=
  ∃ front back, groups = front ++ (List.replicate r.length 0 ++ back) ∧ front.length = r.start

def Run.AtEnd (r : Run) (groups : List UInt16) : Prop :=
  ∃ front, groups = front ++ List.replicate r.length 0 ∧ front.length = r.start

section

variable {r current longest : Run} {front : List UInt16}

theorem Run.Within.append (h : r.Within front) (more : List UInt16) :
    r.Within (front ++ more) := by
  obtain ⟨start, back, rfl, hstart⟩ := h
  exact ⟨start, back ++ more, by simp only [List.append_assoc], hstart⟩

theorem Run.AtEnd.within (h : r.AtEnd front) : r.Within front := by
  obtain ⟨start, rfl, hstart⟩ := h
  exact ⟨start, [], by rw [List.append_nil], hstart⟩

theorem Run.AtEnd.zero (h : r.length = 0 ∨ r.AtEnd front) :
    (if r.length = 0 then ⟨front.length, 1⟩ else ⟨r.start, r.length + 1⟩ : Run).AtEnd
      (front ++ [0]) := by
  by_cases hzero : r.length = 0
  · rw [if_pos hzero]
    exact ⟨front, rfl, rfl⟩
  · obtain ⟨start, rfl, hstart⟩ := h.resolve_left hzero
    rw [if_neg hzero]
    exact ⟨start, by rw [List.replicate_succ', List.append_assoc], hstart⟩

theorem longestZeroRun_within (more : List UInt16) (hlongest : longest.Within front)
    (hcurrent : current.length = 0 ∨ current.AtEnd front) :
    (longestZeroRun front.length current longest more).Within (front ++ more) := by
  induction more generalizing front current longest with
  | nil => rwa [List.append_nil]
  | cons g more ih =>
    have hlength : front.length + 1 = (front ++ [g]).length := by
      rw [List.length_append, List.length_singleton]
    rw [List.append_cons front g more, longestZeroRun, hlength]
    split
    next hg =>
      subst hg
      have hend := Run.AtEnd.zero hcurrent
      exact ih (iteInduction (motive := (Run.Within · _)) (fun _ => hend.within)
        fun _ => hlongest.append _) (.inr hend)
    next hg => exact ih (hlongest.append _) (.inl (rfl : (⟨0, 0⟩ : Run).length = 0))

theorem longestZeroRun_zeros (groups : List UInt16) :
    (longestZeroRun 0 ⟨0, 0⟩ ⟨0, 0⟩ groups).Within groups :=
  @longestZeroRun_within ⟨0, 0⟩ ⟨0, 0⟩ [] groups ⟨[], [], rfl, rfl⟩ (.inl rfl)

end

section

variable {a b c d e f g h : UInt16}

theorem readV6_v6Text :
    readV6 (v6Text [a, b, c, d, e, f, g, h]) = some (.v6 a b c d e f g h, []) := by
  have hread := @readGroups_v6Text [a, b, c, d, e, f, g, h] [] 8 (Nat.le_refl _) (.inl rfl)
  rw [List.append_nil] at hread
  rw [readV6, hread]
  rfl

/-- Two colons stand for the groups that are missing. -/
theorem readV6_of_gap {cs rest : List Char} {groups : List UInt16} {tail : Groups}
    (hhead : readGroups true 8 cs = ⟨groups, false, ':' :: ':' :: rest⟩)
    (hlength : groups.length < 8) (htail : readGroups true (7 - groups.length) rest = tail) :
    readV6 cs = (ofGroups? (groups ++
      List.replicate (8 - groups.length - tail.groups.length) 0 ++ tail.groups)).map
        (·, tail.rest) := by
  rw [readV6, hhead]
  simp only [Nat.ne_of_lt hlength, if_false, Bool.false_eq_true, readChar, if_true,
    Option.bind_eq_bind, Option.bind_some, htail]

theorem readV6_leftOut {front back : List UInt16} {n : Nat} (hn : 0 < n)
    (hlength : front.length + (n + back.length) = 8) :
    readV6 (v6Text front ++ [':', ':'] ++ v6Text back) =
      (ofGroups? (front ++ (List.replicate n 0 ++ back))).map (·, []) := by
  have hfront := @readGroups_v6Text front ([':', ':'] ++ v6Text back) 8 (by omega) (.inr ⟨_, rfl⟩)
  have hback := @readGroups_v6Text back [] (7 - front.length) (by omega) (.inl rfl)
  have hgap : 8 - front.length - back.length = n := by omega
  rw [List.append_nil] at hback
  rw [List.append_assoc, readV6_of_gap hfront (by omega) hback, hgap, List.append_assoc]

theorem readV6_groupsText :
    readV6 (groupsText [a, b, c, d, e, f, g, h]) = some (.v6 a b c d e f g h, []) := by
  obtain ⟨front, back, hgroups, hstart⟩ := longestZeroRun_zeros [a, b, c, d, e, f, g, h]
  generalize hrun : longestZeroRun 0 ⟨0, 0⟩ ⟨0, 0⟩ [a, b, c, d, e, f, g, h] = run at *
  have hlength := congrArg List.length hgroups
  simp only [List.length_append, List.length_replicate, List.length_cons,
    List.length_nil] at hlength
  rw [groupsText, hrun]
  split
  next hlong =>
    have hgap := @readV6_leftOut front back run.length (by omega) hlength.symm
    rw [hgroups, ← hstart, List.take_left, ← List.drop_drop, List.drop_left,
      List.drop_left' (List.length_replicate ..), hgap, ← hgroups]
    rfl
  next => exact readV6_v6Text

theorem groupOf_bytes (g : UInt16) :
    groupOf (UInt8.ofNat (g.toNat / 256)) (UInt8.ofNat (g.toNat % 256)) = g := by
  have hg : g.toNat < 256 * 256 := g.toNat_lt
  have hhigh : (UInt8.ofNat (g.toNat / 256)).toNat = g.toNat / 256 :=
    UInt8.toNat_ofNat_of_lt (Nat.div_lt_of_lt_mul hg)
  have hlow : (UInt8.ofNat (g.toNat % 256)).toNat = g.toNat % 256 :=
    UInt8.toNat_ofNat_of_lt (Nat.mod_lt _ (by decide))
  rw [groupOf, hhigh, hlow, Nat.div_add_mod', UInt16.ofNat_toNat]

theorem readGroups_v4 {a b c d : UInt8} {room : Nat} (hroom : 0 < room) :
    readGroups false (room + 1) (':' :: v4Text [a, b, c, d]) =
      ⟨[groupOf a b, groupOf c d], true, []⟩ := by
  have hv4 := readV4_append a b c d stops_nil
  rw [List.append_nil] at hv4
  rw [readGroups, if_pos hroom]
  simp only [nextGroup, Bool.false_eq_true, if_false, readChar, if_true, Option.bind_some, hv4]

theorem readV6_mapped (a b c d : UInt8) : readV6 ("::ffff:".toList ++ v4Text [a, b, c, d]) =
    some (.v6 0 0 0 0 0 0xffff (groupOf a b) (groupOf c d), []) := by
  have hhead : readGroups true 8 ("::ffff:".toList ++ v4Text [a, b, c, d]) =
      ⟨[], false, "::ffff:".toList ++ v4Text [a, b, c, d]⟩ :=
    @readGroups_v6Text [] _ 8 (Nat.zero_le _) (.inr ⟨_, rfl⟩)
  have htail : readGroups true 7 ("ffff:".toList ++ v4Text [a, b, c, d]) =
      ⟨[0xffff, groupOf a b, groupOf c d], true, []⟩ := by
    have hgroup := @readGroups_group 0xffff ("ffff:".toList ++ v4Text [a, b, c, d])
      (':' :: v4Text [a, b, c, d]) true 6 rfl (fun c hc => (Option.some.inj hc).symm)
    rwa [readGroups_v4 (by decide)] at hgroup
  rw [readV6_of_gap hhead (by decide) htail]
  rfl

theorem readV4_v6Text {groups : List UInt16} {rest : List Char} (hrest : AtGap rest) :
    readV4 (v6Text groups ++ rest) = none := by
  cases groups with
  | nil => exact readV4_atColon hrest.atColon
  | cons g groups =>
    rw [v6Text_cons, List.append_assoc]
    exact readV4_group hrest.moreText

theorem readV4_groupsText (groups : List UInt16) : readV4 (groupsText groups) = none := by
  rw [groupsText]
  split
  · rw [List.append_assoc]
    exact readV4_v6Text (.inr ⟨_, rfl⟩)
  · rw [← List.append_nil (v6Text groups)]
    exact readV4_v6Text (.inl rfl)

theorem read_chars (a : Address) : read a.chars = some (a, []) := by
  rw [chars.eq_def]
  split
  next a b c d =>
    have hv4 := readV4_append a b c d stops_nil
    rw [List.append_nil] at hv4
    rw [read, hv4]
  next g h =>
    have hv4 : readV4 ("::ffff:".toList ++ v4Text [UInt8.ofNat (g.toNat / 256),
        UInt8.ofNat (g.toNat % 256), UInt8.ofNat (h.toNat / 256), UInt8.ofNat (h.toNat % 256)]) =
          none :=
      readV4_atColon fun c hc => (Option.some.inj hc).symm
    rw [read, hv4]
    simp only [readV6_mapped, groupOf_bytes]
  next =>
    rw [read, readV4_groupsText]
    exact readV6_groupsText

/-- Every address is read back from its text. -/
theorem parse?_text (a : Address) : parse? a.text = some a := by
  rw [parse?, text, String.toList_ofList, read_chars]

example : parse? "2001:db8::1:0:0:1" = some (.v6 0x2001 0xdb8 0 0 1 0 0 1) := by rfl

end

end SampleCast.Address
