import SampleCast.Stream.Reader

/-! Reading a stream that brings its bytes.
A list of readings carries some bytes if it brings them in any chunks, with interruptions in any
place, and then ends. What is read from it depends on the bytes alone: `exactly` takes a prefix, and
where the bytes run out it finds the end of the stream. -/

namespace SampleCast.Reading

def IsSteady : Reading → Prop
  | .chunk bytes => bytes ≠ []
  | .fault f => f.isRetried = true

instance : DecidablePred IsSteady
  | .chunk bytes => inferInstanceAs (Decidable (bytes ≠ []))
  | .fault f => inferInstanceAs (Decidable (f.isRetried = true))

structure Carries (s : List Reading) (content : List UInt8) : Prop where
  steady : ∀ r ∈ s, r.IsSteady
  bytes : Reading.bytes s = content

variable {s rest : List Reading} {n : Nat} {a b : List UInt8}

theorem forall_rest_fill {P : Reading → Prop} (hP : ∀ bs, bs ≠ [] → P (.chunk bs)) (n : Nat)
    (h : ∀ r ∈ s, P r) : ∀ r ∈ (fill n s).rest, P r := by
  fun_induction fill n s with
  | case1 s => exact h
  | case2 n => exact h
  | case3 n f s hf ih => exact ih fun r hr => h r (List.mem_cons_of_mem _ hr)
  | case4 n f s hf => exact fun r hr => h r (List.mem_cons_of_mem _ hr)
  | case5 n s => exact fun r hr => h r (List.mem_cons_of_mem _ hr)
  | case6 n b bs s hn =>
    intro r hr
    rcases List.mem_cons.mp hr with rfl | hr
    · refine hP _ fun hnil => ?_
      have hlen := congrArg List.length hnil
      rw [List.length_drop, List.length_nil] at hlen
      omega
    · exact h r (List.mem_cons_of_mem _ hr)
  | case7 n b bs s hn r ih => exact ih fun r hr => h r (List.mem_cons_of_mem _ hr)

theorem fill_steady (n : Nat) (h : ∀ r ∈ s, r.IsSteady) :
    (∀ r ∈ (fill n s).rest, r.IsSteady) ∧
      ((fill n s).stop = .full ∨
        (fill n s).stop = .ended ∧ (fill n s).rest = [] ∧ (fill n s).bytes.length < n) := by
  refine ⟨forall_rest_fill (fun _ hb => hb) n h, ?_⟩
  fun_induction fill n s with
  | case1 s => exact .inl rfl
  | case2 n => exact .inr ⟨rfl, rfl, Nat.succ_pos n⟩
  | case3 n f s hf ih => exact ih fun r hr => h r (List.mem_cons_of_mem _ hr)
  | case4 n f s hf => exact absurd (h _ (List.mem_cons_self ..)) hf
  | case5 n s => exact absurd rfl (h _ (List.mem_cons_self ..))
  | case6 n b bs s hn => exact .inl rfl
  | case7 n b bs s hn r ih =>
    rcases ih fun r hr => h r (List.mem_cons_of_mem _ hr) with hfull | ⟨hend, hnil, hlt⟩
    · exact .inl hfull
    · refine .inr ⟨hend, hnil, ?_⟩
      simp only [List.length_append, List.length_cons, r]
      omega

theorem length_of_exactly (h : exactly n s = (.ok a, rest)) : a.length = n := by
  simp only [exactly] at h
  cases hstop : (fill n s).stop with
  | full =>
    simp only [hstop, Prod.mk.injEq, Except.ok.injEq] at h
    rw [← h.1]
    exact length_fill_of_full hstop
  | ended => simp [hstop] at h
  | failed f => simp [hstop] at h

theorem bytes_of_exactly (h : exactly n s = (.ok a, rest)) : bytes s = a ++ bytes rest := by
  rw [← bytes_fill n s]
  simp only [exactly] at h
  cases hstop : (fill n s).stop with
  | full =>
    simp only [hstop, Prod.mk.injEq, Except.ok.injEq] at h
    rw [h.1, h.2]
  | ended => simp [hstop] at h
  | failed f => simp [hstop] at h

theorem bytes_of_exactlyOrEnd (h : exactlyOrEnd n s = (.ok (some a), rest)) :
    bytes s = a ++ bytes rest := by
  rw [← bytes_fill n s]
  simp only [exactlyOrEnd] at h
  cases hstop : (fill n s).stop with
  | full =>
    simp only [hstop, Prod.mk.injEq, Except.ok.injEq, Option.some.injEq] at h
    rw [h.1, h.2]
  | ended =>
    by_cases hempty : (fill n s).bytes.isEmpty
    · simp [hstop, hempty] at h
    · simp [hstop, hempty] at h
  | failed f => simp [hstop] at h

theorem carries_chunks {chunks : List (List UInt8)} (h : ∀ c ∈ chunks, c ≠ []) :
    Carries (chunks.map .chunk) chunks.flatten := by
  constructor
  · intro r hr
    obtain ⟨c, hc, rfl⟩ := List.mem_map.mp hr
    exact h c hc
  · induction chunks with
    | nil => rfl
    | cons c chunks ih =>
      have hrest := ih fun b hb => h b (List.mem_cons_of_mem _ hb)
      rw [List.map_cons, Reading.bytes, hrest, List.flatten_cons]

namespace Carries

theorem fill (h : Carries s (a ++ b)) :
    ∃ rest, fill a.length s = ⟨a, .full, rest⟩ ∧ Carries rest b := by
  have hbytes := bytes_fill a.length s
  obtain ⟨hsteady, hstop⟩ := fill_steady a.length h.steady
  rw [h.bytes] at hbytes
  rcases hstop with hfull | ⟨-, hnil, hlt⟩
  · obtain ⟨ha, hb⟩ := List.append_inj hbytes (length_fill_of_full hfull)
    refine ⟨(Reading.fill a.length s).rest, ?_, hsteady, hb⟩
    cases hf : Reading.fill a.length s
    simp_all
  · rw [hnil] at hbytes
    have hlen := congrArg List.length hbytes
    simp only [Reading.bytes, List.append_nil, List.length_append] at hlen
    omega

theorem fill_short (h : Carries s a) (hn : a.length < n) :
    Reading.fill n s = ⟨a, .ended, []⟩ := by
  have hbytes := bytes_fill n s
  obtain ⟨-, hstop⟩ := fill_steady n h.steady
  rw [h.bytes] at hbytes
  rcases hstop with hfull | ⟨hend, hnil, -⟩
  · have hlen := congrArg List.length hbytes
    rw [List.length_append, length_fill_of_full hfull] at hlen
    omega
  · cases hf : Reading.fill n s
    simp_all [Reading.bytes]

theorem exactly (h : Carries s (a ++ b)) (hn : a.length = n) :
    ∃ rest, Reading.exactly n s = (.ok a, rest) ∧ Carries rest b := by
  obtain ⟨rest, hf, hrest⟩ := h.fill
  rw [hn] at hf
  exact ⟨rest, by simp only [Reading.exactly, hf], hrest⟩

theorem exactly_short (h : Carries s a) (hn : a.length < n) :
    Reading.exactly n s = (.error .shortRead, []) := by
  simp only [Reading.exactly, h.fill_short hn]

theorem exactlyOrEnd (h : Carries s (a ++ b)) (hn : a.length = n) :
    ∃ rest, Reading.exactlyOrEnd n s = (.ok (some a), rest) ∧ Carries rest b := by
  obtain ⟨rest, hf, hrest⟩ := h.fill
  rw [hn] at hf
  exact ⟨rest, by simp only [Reading.exactlyOrEnd, hf], hrest⟩

theorem exactlyOrEnd_nil (h : Carries s []) (hn : 0 < n) :
    Reading.exactlyOrEnd n s = (.ok none, []) := by
  simp [Reading.exactlyOrEnd, h.fill_short hn]

theorem exactlyOrEnd_short (h : Carries s a) (ha : a ≠ []) (hn : a.length < n) :
    Reading.exactlyOrEnd n s = (.error .brokenMessage, []) := by
  simp [Reading.exactlyOrEnd, h.fill_short hn, ha]

end Carries
end SampleCast.Reading
