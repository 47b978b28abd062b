import SampleCast.Proofs.Connection.Life

/-! What a connection leaves unread.
A feeder reads once, and what it leaves of the stream then it never looks at again. So two
connections that read the same request go on alike, whatever else their clients have sent: they take
the same turns and do the same to what the connections share. Main statement: `Life.alike_run`. -/

namespace SampleCast.Connection

variable {station : Station} {incoming : List Reading} {hub hub' : Hub} {peer : Acceptance}
  {c c' : Connection}

/-- Two connections that differ at most in what is still to be read, and read the same request. -/
def Alike (station : Station) (c c' : Connection) : Prop :=
  ∃ s, c' = { c with incoming := s } ∧ (c.feeder = .reading →
    (Request.read station.requestLimit s).1 = (Request.read station.requestLimit c.incoming).1)

theorem send_incoming (c : Connection) (s : List Reading) (hub : Hub) (peer : Acceptance) :
    send hub peer { c with incoming := s } =
      (c.send hub peer).map fun p => (p.1, { p.2 with incoming := s }) := by
  unfold send
  cases hc : c.sender with
  | popping =>
    dsimp only
    rcases c.queue.popOrTimeOut with ⟨_ | _ | _, q⟩ <;> rfl
  | writing size left =>
    cases left with
    | nil => rfl
    | cons b bs =>
      dsimp only
      cases peer.settle (b :: bs) <;> rfl
  | _ => rfl

theorem feed_incoming (hc : c.feeder ≠ .reading) (s : List Reading) (station : Station) (hub : Hub)
    (peer : Acceptance) :
    feed station hub peer { c with incoming := s } =
      (c.feed station hub peer).map fun p => (p.1, { p.2 with incoming := s }) := by
  unfold feed
  cases hf : c.feeder with
  | reading => exact absurd hf hc
  | replying seat parts =>
    rcases parts with _ | ⟨_ | ⟨b, bs⟩, parts⟩
    · rfl
    · rfl
    · dsimp only
      cases peer.settle (b :: bs) <;> rfl
  | queueing seat g frame =>
    dsimp only
    rcases c.queue.push frame with ⟨_ | _, q⟩ <;> rfl
  | acknowledging seat g =>
    dsimp only
    rcases hub.barrier.acknowledge seat.worker g with ⟨_ | _, barrier⟩ <;> rfl
  | closing seat reason stage =>
    cases stage with
    | joining =>
      simp only [close]
      split_ifs <;> rfl
    | _ => rfl
  | _ => rfl

theorem SenderStep.incoming_eq (h : SenderStep hub c hub' c') : c'.incoming = c.incoming := by
  cases h <;> rfl

theorem FeederStep.ne_reading (h : FeederStep station hub c hub' c') :
    c'.feeder ≠ .reading := by
  cases h with
  | read hc hr =>
    rcases consider_cases station _ with ⟨e, he⟩ | ⟨channels, he⟩ <;> rw [he] <;> exact nofun
  | _ => exact nofun

theorem Alike.take (h : Alike station c c') (t : Turn) :
    (t.take station c = none ∧ t.take station c' = none) ∨
    ∃ hub d d', t.take station c = some (hub, d) ∧ t.take station c' = some (hub, d') ∧
      Alike station d d' := by
  obtain ⟨s, rfl, hread⟩ := h
  cases t with
  | send hub peer =>
    simp only [Turn.take, send_incoming]
    cases hd : c.send hub peer with
    | none => exact .inl ⟨rfl, rfl⟩
    | some p =>
      have hstep : SenderStep hub c p.1 p.2 := senderStep_of_send hd
      refine .inr ⟨p.1, p.2, _, rfl, rfl, s, rfl, fun hp => ?_⟩
      rw [hstep.incoming_eq]
      exact hread (hstep.feeder.symm.trans hp)
  | feed hub peer =>
    simp only [Turn.take]
    by_cases hc : c.feeder = .reading
    · by_cases ht : station.settings.handshakeTimeout = 0
      · simp only [feed, hc, if_pos ht]
        exact .inr ⟨_, _, _, rfl, rfl, s, rfl, nofun⟩
      · simp only [feed, hc, if_neg ht, hread hc]
        refine .inr ⟨_, _, _, rfl, rfl, _, rfl, fun hp => ?_⟩
        have hstep : FeederStep station hub c hub _ := .read hc rfl
        exact absurd hp hstep.ne_reading
    · rw [feed_incoming hc s]
      cases hd : c.feed station hub peer with
      | none => exact .inl ⟨rfl, rfl⟩
      | some p =>
        refine .inr ⟨p.1, p.2, _, rfl, rfl, s, rfl, fun hp => ?_⟩
        exact absurd hp (feederStep_of_feed hd).ne_reading

theorem Alike.same (h : Alike station c c') :
    c' = { c with incoming := c'.incoming } ∧
      ∀ t : Turn, (t.take station c').map (·.1) = (t.take station c).map (·.1) := by
  constructor
  · obtain ⟨s, rfl, -⟩ := h
    rfl
  · intro t
    rcases h.take t with ⟨hn, hn'⟩ | ⟨hub, d, d', hd, hd', -⟩
    · rw [hn, hn']
    · rw [hd, hd']
      rfl

namespace Life

theorem alike_run {incoming' : List Reading}
    (h : (Request.read station.requestLimit incoming').1 =
      (Request.read station.requestLimit incoming).1) (turns : List Turn) :
    Alike station (run station incoming turns).present
      (run station incoming' turns).present := by
  induction turns using List.reverseRecOn with
  | nil => exact ⟨incoming', rfl, fun _ => h⟩
  | append_singleton turns t ih =>
    rw [run_concat, run_concat]
    rcases ih.take t with ⟨hn, hn'⟩ | ⟨hub, d, d', hd, hd', halike⟩
    · rw [act, hn, act, hn']
      exact ih
    · rw [act_of_take hd, act_of_take hd']
      exact halike

end Life
end SampleCast.Connection
