import SampleCast.Proofs.Connection.Place
import SampleCast.Proofs.Queue

/-! The flow of bytes through a connection.
The frames that a feeder has queued are, in order, those whose messages the client's side of the
stream has taken whole, at most one of which it has taken a part, and those still in the queue.
`Flow` says so for every phase of the two workers: first the feeder writes the reply, and the sender
begins when all of it is written. Main statements: every action of either worker keeps the flow, and
what has been taken is a prefix of the reply and the messages. -/

namespace SampleCast

def FeederPhase.IsServing : FeederPhase → Prop
  | .checking _ | .waiting _ | .copying .. | .queueing .. | .acknowledging .. | .closing ..
  | .returned (.served _) | .over (.served _) => True
  | _ => False

namespace Connection

def Greeting (reply output : List UInt8) : FeederPhase → Prop
  | .reading | .refusing _ | .joining _ => output = []
  | .replying _ parts => output ++ parts.flatten = reply
  | .abandoning .. | .hangingUp _ | .returned (.refused _) | .over (.refused _) => output <+: reply
  | _ => False

/-- Where the frames that the feeder has queued have gone to, by the phase of the sender. -/
def Sending (reply : List UInt8) (frames : List Frame) (queue : Queue Frame)
    (output : List UInt8) : SenderPhase → Prop
  | .absent => frames = [] ∧ queue.Holds []
  | .popping | .polling =>
    ∃ done items, frames = done ++ items ∧ queue.Holds items ∧
      output = reply ++ done.flatMap Message.encode
  | .writing _ left =>
    ∃ done f items part, frames = done ++ f :: items ∧ queue.Holds items ∧
      Message.encode f = part ++ left ∧ output = reply ++ done.flatMap Message.encode ++ part
  | .failing _ | .unlinking | .exited => output <+: reply ++ frames.flatMap Message.encode

structure Flow (reply : List UInt8) (frames : List Frame) (c : Connection) : Prop where
  greeting : c.sender = .absent → Greeting reply c.output c.feeder
  serving : c.sender ≠ .absent → c.feeder.IsServing
  sending : Sending reply frames c.queue c.output c.sender
  drained : ∀ seat reason, c.feeder = .closing seat reason .draining → c.sender = .exited

variable {station : Station} {hub hub' : Hub} {reply output : List UInt8} {frames : List Frame}
  {queue q : Queue Frame} {f : Frame} {c c' : Connection} {p : FeederPhase} {t : SenderPhase}

theorem Greeting.output_isPrefix (h : Greeting reply output p) : output <+: reply := by
  unfold Greeting at h
  split at h
  · exact h ▸ List.nil_prefix
  · exact h ▸ List.nil_prefix
  · exact h ▸ List.nil_prefix
  · exact h ▸ List.prefix_append _ _
  · exact h
  · exact h
  · exact h
  · exact h
  · exact h.elim

theorem Greeting.not_isServing (h : Greeting reply output p) : ¬ p.IsServing := by
  intro hs
  unfold Greeting at h
  split at h <;> simp_all [FeederPhase.IsServing]

namespace Sending

theorem output_isPrefix (h : Sending reply frames queue output t) (ht : t ≠ .absent) :
    output <+: reply ++ frames.flatMap Message.encode := by
  cases t with
  | absent => exact absurd rfl ht
  | popping | polling =>
    obtain ⟨done, items, rfl, -, ho⟩ := h
    rw [ho, List.flatMap_append, ← List.append_assoc]
    exact List.prefix_append _ _
  | writing size left =>
    obtain ⟨done, f, items, part, rfl, -, he, ho⟩ := h
    refine ⟨left ++ items.flatMap Message.encode, ?_⟩
    rw [ho, List.flatMap_append, List.flatMap_cons, he]
    simp only [List.append_assoc]
  | failing | unlinking | exited => exact h

theorem push (h : Sending reply frames queue output t) (ht : t ≠ .absent)
    (hq : queue.push f = (.accepted, q)) : Sending reply (frames ++ [f]) q output t := by
  cases t with
  | absent => exact absurd rfl ht
  | popping | polling =>
    obtain ⟨done, items, rfl, hitems, ho⟩ := h
    exact ⟨done, items ++ [f], by rw [List.append_assoc], hitems.push_accepted hq, ho⟩
  | writing size left =>
    obtain ⟨done, f', items, part, rfl, hitems, he, ho⟩ := h
    exact ⟨done, f', items ++ [f], part, by simp, hitems.push_accepted hq, he, ho⟩
  | failing | unlinking | exited =>
    have hmore : reply ++ frames.flatMap Message.encode <+:
        reply ++ (frames ++ [f]).flatMap Message.encode := by
      rw [List.flatMap_append, ← List.append_assoc]
      exact List.prefix_append _ _
    exact List.IsPrefix.trans h hmore

theorem close (h : Sending reply frames queue output t) :
    Sending reply frames queue.close output t := by
  cases t with
  | absent => exact ⟨h.1, h.2.close⟩
  | popping | polling =>
    obtain ⟨done, items, hf, hq, ho⟩ := h
    exact ⟨done, items, hf, hq.close, ho⟩
  | writing size left =>
    obtain ⟨done, f, items, part, hf, hq, he, ho⟩ := h
    exact ⟨done, f, items, part, hf, hq.close, he, ho⟩
  | failing | unlinking | exited => exact h

end Sending

namespace Flow

theorem accept (station : Station) (incoming : List Reading) :
    Flow reply [] (.accept station incoming) :=
  ⟨fun _ => rfl, fun h => absurd rfl h, ⟨rfl, Queue.holds_ofCapacity _⟩, nofun⟩

theorem output_isPrefix (h : Flow reply frames c) :
    c.output <+: reply ++ frames.flatMap Message.encode := by
  by_cases hc : c.sender = .absent
  · exact (h.greeting hc).output_isPrefix.trans (List.prefix_append _ _)
  · exact h.sending.output_isPrefix hc

theorem absent (h : Flow reply frames c) (hc : ¬ c.feeder.IsServing) : c.sender = .absent := by
  apply Classical.byContradiction
  intro hs
  exact hc (h.serving hs)

theorem present (h : Flow reply frames c) (hc : c.feeder.IsServing) : c.sender ≠ .absent := by
  intro hs
  exact (h.greeting hs).not_isServing hc

theorem refeed (h : Flow reply frames c) (hc : c.feeder.IsServing) (hp : p.IsServing)
    (hd : ∀ seat reason, p = .closing seat reason .draining → c.sender = .exited) :
    Flow reply frames { c with feeder := p } :=
  ⟨fun ha => absurd ha (h.present hc), fun _ => hp, h.sending, hd⟩

theorem greet (h : Flow reply frames c) (hc : ¬ c.feeder.IsServing)
    (hp : Greeting reply output p) {incoming : List Reading} {hungUp : Bool} :
    Flow reply frames { c with incoming, output, hungUp, feeder := p } := by
  have ha := h.absent hc
  have hs := h.sending
  refine ⟨fun _ => hp, fun hn => absurd ha hn, ?_, ?_⟩
  · change Sending reply frames c.queue output c.sender
    rw [ha] at hs ⊢
    exact hs
  · intro seat reason he
    change p = _ at he
    rw [he] at hp
    exact hp.elim

theorem begin {seat : Seat} (h : Flow reply frames c) (hc : c.feeder = .replying seat []) :
    Flow reply frames { c with sender := .popping, feeder := .checking seat } := by
  have ha : c.sender = .absent := by
    apply h.absent
    rw [hc]
    exact id
  have hs := h.sending
  have hg := h.greeting ha
  rw [ha] at hs
  rw [hc, Greeting, List.flatten_nil, List.append_nil] at hg
  obtain ⟨rfl, hq⟩ := hs
  exact ⟨nofun, fun _ => trivial, ⟨[], [], rfl, hq, by simpa using hg⟩, nofun⟩

theorem push {seat : Seat} {g : Nat} (h : Flow reply frames c)
    (hc : c.feeder = .queueing seat g f) (hq : c.queue.push f = (.accepted, q)) :
    Flow reply (frames ++ [f]) { c with queue := q, feeder := .acknowledging seat g } := by
  have hp : c.sender ≠ .absent := by
    apply h.present
    rw [hc]
    trivial
  exact ⟨fun ha => absurd ha hp, fun _ => trivial, h.sending.push hp hq, nofun⟩

theorem close (h : Flow reply frames c) : Flow reply frames { c with queue := c.queue.close } :=
  ⟨h.greeting, h.serving, h.sending.close, h.drained⟩

theorem hangUp (h : Flow reply frames c) : Flow reply frames { c with hungUp := true } :=
  ⟨h.greeting, h.serving, h.sending, h.drained⟩

theorem drain {seat : Seat} {reason : CloseReason} {report : ConnectionReport}
    (h : Flow reply frames c) (hc : c.feeder = .closing seat reason .draining) :
    Flow reply frames
      { c with queue := c.queue.drain.2, feeder := .returned (.served report) } := by
  have he := h.drained seat reason hc
  have hs := h.sending
  refine ⟨?_, fun _ => trivial, ?_, nofun⟩
  · intro ha
    exact absurd (he.symm.trans ha) nofun
  · change Sending reply frames c.queue.drain.2 c.output c.sender
    rw [he] at hs ⊢
    exact hs

end Flow

theorem greeting_consider {r : Except WireError Request} :
    Greeting reply [] (consider station r) := by
  rcases consider_cases station r with ⟨e, he⟩ | ⟨channels, he⟩ <;> rw [he] <;> rfl

theorem FeederStep.flow (h : FeederStep station hub c hub' c')
    (hf : Flow (Reply.encode ⟨station.rate⟩) frames c) :
    Flow (Reply.encode ⟨station.rate⟩)
      (frames ++ ((c.feeder.queued? c'.feeder).map (·.2)).toList) c' := by
  have quiet : c.feeder.queued? c'.feeder = none →
      Flow (Reply.encode ⟨station.rate⟩) frames c' →
      Flow (Reply.encode ⟨station.rate⟩)
        (frames ++ ((c.feeder.queued? c'.feeder).map (·.2)).toList) c' := by
    intro hn hf'
    rw [hn]
    simpa using hf'
  have opening : ∀ {p}, c.feeder = p → ¬ p.IsServing →
      ¬ c.feeder.IsServing ∧ Greeting (Reply.encode ⟨station.rate⟩) c.output p := by
    intro p hc hp
    subst hc
    exact ⟨hp, hf.greeting (hf.absent hp)⟩
  cases h with
  | untimed hc | nextPart hc | abandon hc | dismiss hc =>
    obtain ⟨hn, hg⟩ := opening hc id
    refine quiet (by rw [hc]; rfl) (hf.greet hn ?_)
    exact hg
  | read hc hr =>
    obtain ⟨hn, hg⟩ := opening hc id
    have ho : c.output = [] := hg
    refine quiet (by rw [hc]; rfl) (hf.greet hn ?_)
    rw [ho]
    exact greeting_consider
  | refuse hc | replyBroken hc =>
    obtain ⟨hn, hg⟩ := opening hc id
    refine quiet (by rw [hc]; rfl) (hf.greet hn ?_)
    exact hg.output_isPrefix
  | join hc =>
    obtain ⟨hn, hg⟩ := opening hc id
    have ho : c.output = [] := hg
    refine quiet (by rw [hc]; rfl) (hf.greet hn ?_)
    rw [ho]
    rfl
  | begin hc => exact quiet (by rw [hc]; rfl) (hf.begin hc)
  | reply hc =>
    obtain ⟨hn, hg⟩ := opening hc id
    refine quiet (by rw [hc]; rfl) (hf.greet hn ?_)
    simpa [Greeting] using hg
  | linkUp hc _ | linkDown hc _ | advanced hc _ | timedOut hc _ | stopped hc _ | copy hc _
  | stale hc _ | acknowledge hc _ | violate hc _ | leave hc | record hc =>
    exact quiet (by rw [hc]; rfl) (hf.refeed (by rw [hc]; trivial) trivial nofun)
  | queue hc hq =>
    rw [hc]
    exact hf.push hc hq
  | overflow hc hq =>
    cases Queue.eq_of_push_overflow hq
    exact quiet (by rw [hc]; rfl) (hf.refeed (by rw [hc]; trivial) trivial nofun)
  | closeQueue hc =>
    exact quiet (by rw [hc]; rfl) (hf.close.refeed (by rw [hc]; trivial) trivial nofun)
  | hangUp hc =>
    exact quiet (by rw [hc]; rfl) (hf.hangUp.refeed (by rw [hc]; trivial) trivial nofun)
  | joined hc hs =>
    exact quiet (by rw [hc]; rfl) (hf.refeed (by rw [hc]; trivial) trivial fun _ _ _ => hs)
  | drain hc => exact quiet (by rw [hc]; rfl) (hf.drain hc)
  | @finish o hc =>
    refine quiet (by rw [hc]; rfl) ?_
    cases o with
    | refused e =>
      obtain ⟨hn, hg⟩ := opening hc id
      refine hf.greet hn ?_
      exact hg
    | served report => exact hf.refeed (by rw [hc]; trivial) trivial nofun

theorem SenderStep.flow (h : SenderStep hub c hub' c') (hf : Flow reply frames c) :
    Flow reply frames c' := by
  have hs := hf.sending
  have hprefix := hf.output_isPrefix
  -- The sender has begun, so the feeder serves and does not drain the queue.
  have keep : ∀ {c'}, c.sender ≠ .absent → c.sender ≠ .exited → c'.sender ≠ .absent →
      c'.feeder = c.feeder → Sending reply frames c'.queue c'.output c'.sender →
      Flow reply frames c' := by
    intro c' ha he ha' hfeed hs'
    refine ⟨fun h => absurd h ha', fun _ => hfeed ▸ hf.serving ha, hs', ?_⟩
    intro seat reason hd
    exact absurd (hf.drained seat reason (hfeed ▸ hd)) he
  cases h with
  | @pop frame q hc hq =>
    rw [hc] at hs
    obtain ⟨done, items, rfl, hitems, ho⟩ := hs
    refine keep (by simp [hc]) (by simp [hc]) nofun rfl ?_
    rcases hitems.popOrTimeOut with ⟨rfl, he⟩ | ⟨f, rest, q', rfl, he, hrest⟩
    · rw [he] at hq
      split_ifs at hq <;> cases hq
    · rw [he] at hq
      cases hq
      exact ⟨done, frame, rest, [], rfl, hrest, rfl, by simpa using ho⟩
  | closed hc hq =>
    exact keep (by simp [hc]) (by simp [hc]) nofun rfl hprefix
  | empty hc hq =>
    rw [hc] at hs
    obtain ⟨done, items, rfl, hitems, ho⟩ := hs
    refine keep (by simp [hc]) (by simp [hc]) nofun rfl ?_
    rcases hitems.popOrTimeOut with ⟨rfl, he⟩ | ⟨f, rest, q', rfl, he, hrest⟩
    · rw [he] at hq
      obtain ⟨-, rfl⟩ := Prod.mk.inj hq
      exact ⟨done, [], rfl, hitems, ho⟩
    · rw [he] at hq
      cases hq
  | stop hc _ => exact keep (by simp [hc]) (by simp [hc]) nofun rfl hprefix
  | resume hc _ =>
    rw [hc] at hs
    exact keep (by simp [hc]) (by simp [hc]) nofun rfl hs
  | sent hc =>
    rw [hc] at hs
    obtain ⟨done, f, items, part, rfl, hitems, he, ho⟩ := hs
    rw [List.append_nil] at he
    refine keep (by simp [hc]) (by simp [hc]) nofun rfl ⟨done ++ [f], items, by simp, hitems, ?_⟩
    change c.output = _
    rw [ho, ← he]
    simp
  | @write size taken left hc =>
    rw [hc] at hs
    obtain ⟨done, f, items, part, rfl, hitems, he, ho⟩ := hs
    refine keep (by simp [hc]) (by simp [hc]) nofun rfl
      ⟨done, f, items, part ++ taken, rfl, hitems, ?_, ?_⟩
    · rw [he, List.append_assoc]
    · change c.output ++ taken = _
      rw [ho, List.append_assoc _ part]
  | writeBroken hc => exact keep (by simp [hc]) (by simp [hc]) nofun rfl hprefix
  | fail hc => exact keep (by simp [hc]) (by simp [hc]) nofun rfl hprefix
  | unlink hc => exact keep (by simp [hc]) (by simp [hc]) nofun rfl hprefix

end Connection
end SampleCast
