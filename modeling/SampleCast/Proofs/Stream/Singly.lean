import SampleCast.Proofs.Stream.Reader

/-! Streams byte by byte.
`singly` is a stream with its bytes one at a time and without what is tried again. What is read from
a live stream depends on this form of it alone, also where other faults strike (`fill_singly`), and
of the form only on what is taken, unless the end is met (`fill_split`). What is put
together of such readings is one itself (`IsReader.bind`). -/

namespace SampleCast.Reading

def IsLive : Reading → Prop
  | .chunk bytes => bytes ≠ []
  | .fault _ => True

instance : DecidablePred IsLive
  | .chunk bytes => inferInstanceAs (Decidable (bytes ≠ []))
  | .fault _ => inferInstanceAs (Decidable True)

theorem IsSteady.isLive {r : Reading} (h : r.IsSteady) : r.IsLive := by
  cases r with
  | chunk bytes => exact h
  | fault f => trivial

def IsSingle : Reading → Prop
  | .chunk bytes => bytes.length ≤ 1
  | .fault _ => True

/-- The fault that strikes before a byte is handed out. -/
def strike? : List Reading → Option Fault
  | .fault f :: s => if f.isRetried then strike? s else some f
  | _ => none

def singles (bytes : List UInt8) : List Reading := bytes.map fun b => .chunk [b]

def singly : List Reading → List Reading
  | [] => []
  | .chunk bs :: s => singles bs ++ singly s
  | .fault f :: s => if f.isRetried then singly s else .fault f :: singly s

variable {s s' : List Reading} {n : Nat} {f : Fault}

theorem isSingle_of_mem_singles {bytes : List UInt8} : ∀ r ∈ singles bytes, r.IsSingle := by
  intro r hr
  obtain ⟨b, -, rfl⟩ := List.mem_map.mp hr
  exact Nat.le_refl 1

theorem isSingle_of_mem_singly : ∀ r ∈ singly s, r.IsSingle := by
  fun_induction singly s with
  | case1 => exact nofun
  | case2 bs s ih =>
    intro r hr
    rcases List.mem_append.mp hr with hr | hr
    · exact isSingle_of_mem_singles r hr
    · exact ih r hr
  | case3 f s hf ih => exact ih
  | case4 f s hf ih =>
    intro r hr
    rcases List.mem_cons.mp hr with rfl | hr
    · trivial
    · exact ih r hr

theorem bytes_append (s s' : List Reading) : bytes (s ++ s') = bytes s ++ bytes s' := by
  induction s with
  | nil => rfl
  | cons r s ih => cases r <;> simp [bytes, ih]

theorem bytes_singles (bs : List UInt8) : bytes (singles bs) = bs := by
  induction bs with
  | nil => rfl
  | cons b bs ih => exact congrArg (b :: ·) ih

theorem bytes_singly (s : List Reading) : bytes (singly s) = bytes s := by
  fun_induction singly s with
  | case1 => rfl
  | case2 bs s ih => rw [bytes_append, bytes_singles, ih, bytes]
  | case3 f s hf ih => exact ih
  | case4 f s hf ih => exact ih

theorem singly_of_steady (h : ∀ r ∈ s, r.IsSteady) : singly s = singles (bytes s) := by
  fun_induction singly s with
  | case1 => rfl
  | case2 bs s ih =>
    rw [ih fun r hr => h r (List.mem_cons_of_mem _ hr), bytes, singles, singles, singles,
      List.map_append]
  | case3 f s hf ih => exact ih fun r hr => h r (List.mem_cons_of_mem _ hr)
  | case4 f s hf ih => exact absurd (h _ (List.mem_cons_self ..)) hf

theorem fill_singles_append (bs : List UInt8) (s : List Reading) (n : Nat) :
    fill (bs.length + n) (singles bs ++ s) =
      ⟨bs ++ (fill n s).bytes, (fill n s).stop, (fill n s).rest⟩ := by
  induction bs with
  | nil => simp [singles]
  | cons b bs ih =>
    rw [List.length_cons, Nat.add_right_comm]
    change fill (bs.length + n + 1) (.chunk [b] :: (singles bs ++ s)) = _
    simp only [fill, List.length_nil, Nat.not_lt_zero, if_false, Nat.sub_zero, ih]
    rfl

theorem fill_singly (n : Nat) (h : ∀ r ∈ s, r.IsLive) :
    fill n (singly s) = ⟨(fill n s).bytes, (fill n s).stop, singly (fill n s).rest⟩ := by
  fun_induction fill n s with
  | case1 s => rw [fill]
  | case2 n => rfl
  | case3 n f s hf ih =>
    rw [singly, if_pos hf]
    exact ih fun r hr => h r (List.mem_cons_of_mem _ hr)
  | case4 n f s hf => rw [singly, if_neg hf, fill, if_neg hf]
  | case5 n s => exact absurd rfl (h _ (List.mem_cons_self ..))
  | case6 n b bs s hn =>
    -- The chunk is more than is wanted, so that it is divided.
    have hlen : n.succ = (b :: bs.take n).length := by
      rw [List.length_cons, List.length_take]
      omega
    have hsplit : singles (b :: bs) = singles (b :: bs.take n) ++ singles (bs.drop n) := by
      rw [singles, singles, singles, ← List.map_append, List.cons_append, List.take_append_drop]
    rw [singly, hsplit, List.append_assoc, hlen]
    have hfill := fill_singles_append (b :: bs.take n) (singles (bs.drop n) ++ singly s) 0
    simpa [fill, singly] using hfill
  | case7 n b bs s hn r ih =>
    have hlen : n.succ = (b :: bs).length + (n - bs.length) := by
      rw [List.length_cons]
      omega
    rw [singly, hlen, fill_singles_append, ih fun r hr => h r (List.mem_cons_of_mem _ hr)]

theorem fill_split (n : Nat) (h : ∀ r ∈ s, r.IsSingle) :
    ∃ taken, s = taken ++ (fill n s).rest ∧ ∀ more, ((fill n s).rest = [] → more = []) →
      fill n (taken ++ more) = ⟨(fill n s).bytes, (fill n s).stop, more⟩ := by
  fun_induction fill n s with
  | case1 s => exact ⟨[], rfl, fun more _ => by rw [List.nil_append, fill]⟩
  | case2 n => exact ⟨[], rfl, fun more hmore => by rw [hmore rfl]; rfl⟩
  | case3 n f s hf ih =>
    obtain ⟨taken, hs, hsame⟩ := ih fun r hr => h r (List.mem_cons_of_mem _ hr)
    refine ⟨.fault f :: taken, congrArg (.fault f :: ·) hs, fun more hmore => ?_⟩
    rw [List.cons_append, fill, if_pos hf, hsame more hmore]
  | case4 n f s hf =>
    exact ⟨[.fault f], rfl, fun more _ => by rw [List.singleton_append, fill, if_neg hf]⟩
  | case5 n s => exact ⟨[.chunk []], rfl, fun more _ => rfl⟩
  | case6 n b bs s hn =>
    have hone : (b :: bs).length ≤ 1 := h _ (List.mem_cons_self ..)
    rw [List.length_cons] at hone
    omega
  | case7 n b bs s hn r ih =>
    have hone : (b :: bs).length ≤ 1 := h _ (List.mem_cons_self ..)
    obtain ⟨taken, hs, hsame⟩ := ih fun r hr => h r (List.mem_cons_of_mem _ hr)
    refine ⟨.chunk (b :: bs) :: taken, congrArg (.chunk (b :: bs) :: ·) hs, fun more hmore => ?_⟩
    rw [List.cons_append, fill, if_neg hn, hsame more hmore]

/-- Of a live stream `taken` is taken, and the answer is the same wherever that comes first. -/
structure Takes {α : Type} (run : List Reading → α × List Reading) (s taken : List Reading) :
    Prop where
  live : ∀ r ∈ (run s).2, r.IsLive
  split : singly s = taken ++ singly (run s).2
  same : ∀ s' more, (∀ r ∈ s', r.IsLive) → singly s' = taken ++ more →
    (singly (run s).2 = [] → more = []) → (run s').1 = (run s).1 ∧ singly (run s').2 = more

def IsReader {α : Type} (run : List Reading → α × List Reading) : Prop :=
  ∀ s, (∀ r ∈ s, r.IsLive) → ∃ taken, Takes run s taken

section

variable {α β : Type} {run : List Reading → α × List Reading}

theorem isReader_nothing (a : α) : IsReader fun s => (a, s) :=
  fun _ h => ⟨[], h, rfl, fun _ _ _ hs' _ => ⟨rfl, hs'⟩⟩

theorem isReader_fill (n : Nat) :
    IsReader fun s => (((fill n s).bytes, (fill n s).stop), (fill n s).rest) := by
  intro s h
  obtain ⟨taken, hsplit, hsame⟩ := fill_split n (isSingle_of_mem_singly (s := s))
  rw [fill_singly n h] at hsplit hsame
  refine ⟨taken, forall_rest_fill (fun _ hb => hb) n h, hsplit, fun s' more hs' htaken hmore => ?_⟩
  have hfill := hsame more hmore
  rw [← htaken, fill_singly n hs'] at hfill
  obtain ⟨hbytes, hstop, hrest⟩ := Filled.mk.inj hfill
  exact ⟨Prod.ext hbytes hstop, hrest⟩

theorem IsReader.map (h : IsReader run) (g : α → β) :
    IsReader fun s => (g (run s).1, (run s).2) := by
  intro s hs
  obtain ⟨taken, htaken⟩ := h s hs
  refine ⟨taken, htaken.live, htaken.split, fun s' more hs' hsplit hmore => ?_⟩
  obtain ⟨hanswer, hrest⟩ := htaken.same s' more hs' hsplit hmore
  exact ⟨congrArg g hanswer, hrest⟩

theorem IsReader.bind (h : IsReader run) (next : α → List Reading → β × List Reading)
    (hnext : ∀ a, IsReader (next a)) : IsReader fun s => next (run s).1 (run s).2 := by
  intro s hs
  obtain ⟨taken, hrun⟩ := h s hs
  obtain ⟨more, hmore⟩ := hnext (run s).1 (run s).2 hrun.live
  refine ⟨taken ++ more, hmore.live, ?_, fun s' rest hs' hsplit hrest => ?_⟩
  · rw [List.append_assoc, ← hmore.split, hrun.split]
  · rw [List.append_assoc] at hsplit
    obtain ⟨hanswer, hleft⟩ := hrun.same s' (more ++ rest) hs' hsplit fun hnil => by
      rw [hmore.split, List.append_eq_nil_iff] at hnil
      rw [hnil.1, hrest hnil.2, List.append_nil]
    obtain ⟨_, hrun'⟩ := h s' hs'
    rw [hanswer]
    exact hmore.same (run s').2 rest hrun'.live hleft hrest

def outcome (bytes : List UInt8) : Stop → Except Fault (List UInt8)
  | .full => .ok bytes
  | .ended => .error .shortRead
  | .failed f => .error f

def outcomeOrEnd (bytes : List UInt8) : Stop → Except Fault (Option (List UInt8))
  | .full => .ok (some bytes)
  | .ended => if bytes.isEmpty then .ok none else .error .brokenMessage
  | .failed f => .error f

theorem exactly_eq : exactly n s = (outcome (fill n s).bytes (fill n s).stop, (fill n s).rest) := by
  simp only [exactly]
  cases (fill n s).stop <;> rfl

theorem exactlyOrEnd_eq : exactlyOrEnd n s =
    (outcomeOrEnd (fill n s).bytes (fill n s).stop, (fill n s).rest) := by
  simp only [exactlyOrEnd]
  cases (fill n s).stop <;> rfl

theorem isReader_exactly (n : Nat) : IsReader (exactly n) := by
  rw [show exactly n = _ from funext fun _ => exactly_eq]
  exact (isReader_fill n).map fun got => outcome got.1 got.2

theorem isReader_exactlyOrEnd (n : Nat) : IsReader (exactlyOrEnd n) := by
  rw [show exactlyOrEnd n = _ from funext fun _ => exactlyOrEnd_eq]
  exact (isReader_fill n).map fun got => outcomeOrEnd got.1 got.2

end

theorem fill_of_strike (hf : strike? s = some f) (hn : 0 < n) :
    ∃ rest, fill n s = ⟨[], .failed f, rest⟩ ∧ bytes rest = bytes s ∧ ∀ r ∈ rest, r ∈ s := by
  fun_induction strike? s with
  | case1 g s hg ih =>
    obtain ⟨rest, hfill, hbytes, hmem⟩ := ih hf
    obtain ⟨n, rfl⟩ := Nat.exists_eq_add_one.mpr hn
    refine ⟨rest, ?_, hbytes, fun r hr => List.mem_cons_of_mem _ (hmem r hr)⟩
    rw [fill, if_pos hg]
    exact hfill
  | case2 g s hg =>
    cases hf
    obtain ⟨n, rfl⟩ := Nat.exists_eq_add_one.mpr hn
    exact ⟨s, by rw [fill, if_neg hg], rfl, fun r hr => List.mem_cons_of_mem _ hr⟩
  | case3 s _ => cases hf

end SampleCast.Reading
