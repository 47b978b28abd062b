import SampleCast.Proofs.Connection.Dispatch
import SampleCast.Proofs.Queue.Fifo

/-! How a sender comes to its exit.
What a sender at work has sent and where it stops is read off the invariant of its turns. A turn
that finds the queue closed and a client that takes something leaves less to do, so that the exit is
reached. Main statement: `run_dispatches`, on every schedule and every client. -/

namespace SampleCast

theorem Fault.isDisconnect_eq_false_iff {f : Fault} : f.isDisconnect = false ↔
    f.kind ≠ .brokenPipe ∧ f.kind ≠ .connectionReset ∧ f.kind ≠ .connectionAborted := by
  simp [isDisconnect, and_assoc]

namespace Connection.Dispatch

variable {m : Metrics} {output part : List UInt8} {d : Dispatch} {done held items : List Frame}
  {hub : Hub} {peer : Acceptance} {c : Connection}

def Takes (peer : Acceptance) : Prop := ∃ n, peer = .upTo (n + 1)

/-- More turns than a sender needs to empty a closed queue into such a client. -/
def load (c : Connection) : Nat :=
  (c.queue.toList.map fun f => (Message.encode f).length + 2).sum +
    match c.sender with
    | .absent | .exited => 0
    | .popping | .unlinking => 1
    | .polling | .failing _ => 2
    | .writing _ left => left.length + 2

namespace Sound

theorem load_turn (h : Sound m output d done held items part) (hp : Takes peer)
    (hclosed : d.connection.queue.closed = true) (he : d.connection.sender ≠ .exited) :
    let d' := d.act (.turn peer)
    load d'.connection < load d.connection ∧ d'.connection.queue.closed = true := by
  intro d'
  have hstage := h.stage
  cases hc : d.connection.sender with
  | absent =>
    rw [hc] at hstage
    exact hstage.elim
  | exited => exact absurd hc he
  | popping =>
    rcases h.queue.popOrTimeOut with ⟨rfl, hpop⟩ | ⟨frame, rest, q, rfl, hpop, hq⟩
    · have hd' : d' = _ := act_turn (send_empty hc hpop)
      rw [hd']
      exact ⟨by simp [load, took, hc, hclosed], hclosed⟩
    · have hd' : d' = _ := act_turn (send_item hc hpop)
      have hqclosed := @Queue.closed_popOrTimeOut _ d.connection.queue
      rw [hpop] at hqclosed
      rw [hd']
      refine ⟨?_, hqclosed.trans hclosed⟩
      simp only [load, took, hq.toList, h.queue.toList, hc, List.map_cons, List.sum_cons]
      omega
  | polling =>
    have hd' : d' = _ := act_turn (send_polling hc)
    rw [hd']
    refine ⟨?_, hclosed⟩
    cases d.hub.barrier.stopped <;> simp [load, took, hc]
  | writing size left =>
    cases left with
    | nil =>
      have hd' : d' = _ := act_turn (send_sent hc)
      rw [hd']
      exact ⟨by simp [load, took, hc], hclosed⟩
    | cons b bs =>
      obtain ⟨n, rfl⟩ := hp
      have hd' : d' = _ := act_turn (send_more hc rfl)
      rw [hd']
      refine ⟨?_, hclosed⟩
      simp only [load, took, hc, List.length_drop, List.length_cons]
      omega
  | failing f =>
    have hd' : d' = _ := act_turn (send_failing hc)
    rw [hd']
    exact ⟨by simp [load, took, hc], hclosed⟩
  | unlinking =>
    have hd' : d' = _ := act_turn (send_unlinking hc)
    rw [hd']
    exact ⟨by simp [load, took, hc], hclosed⟩

theorem exited_of_load (h : Sound m output d done held items part) (hl : load d.connection = 0) :
    d.connection.sender = .exited := by
  have hstage := h.stage
  cases hc : d.connection.sender with
  | absent =>
    rw [hc] at hstage
    exact hstage.elim
  | exited => rfl
  | _ => simp [load, hc] at hl

theorem turns_of_exited (hc : d.connection.sender = .exited) (peers : List Acceptance) :
    (peers.map .turn).foldl act d = d := by
  induction peers with
  | nil => rfl
  | cons peer peers ih =>
    rw [List.map_cons, List.foldl_cons, act, send_exited hc]
    exact ih

theorem exits (h : Sound m output d done held items part)
    (hclosed : d.connection.queue.closed = true) {peers : List Acceptance}
    (hp : ∀ peer ∈ peers, Takes peer) (hl : load d.connection ≤ peers.length) :
    ((peers.map .turn).foldl act d).connection.sender = .exited := by
  induction peers generalizing d done held items part with
  | nil => exact h.exited_of_load (Nat.le_zero.mp hl)
  | cons peer peers ih =>
    by_cases he : d.connection.sender = .exited
    · rw [turns_of_exited he]
      exact he
    · obtain ⟨hless, hclosed'⟩ := h.load_turn (hp peer List.mem_cons_self) hclosed he
      obtain ⟨done', held', items', part', h'⟩ := h.turn_any peer
      rw [List.length_cons] at hl
      exact ih h' hclosed' (fun peer hpeer => hp peer (List.mem_cons_of_mem _ hpeer)) (by omega)

variable (h : Sound m output d done held items part)
include h

theorem take_accepted : d.accepted.take d.connection.sent.frames = done := by
  rw [h.sent, h.all, List.append_assoc, List.take_left]

theorem getElem?_accepted {frame : Frame} (hheld : held = [frame]) :
    d.accepted[d.connection.sent.frames]? = some frame := by
  rw [h.sent, h.all, hheld]
  simp

end Sound

theorem Stage.cases {past : List Found} {linkUp closed : Bool} {p : SenderPhase}
    (h : Stage past linkUp closed held items part p) :
    (Unbroken past linkUp ∧ (held = [] ∧ part = [] ∨
      ∃ frame, held = [frame] ∧ part <+: Message.encode frame)) ∨
    ∃ f, Broken past held part f ∧ (linkUp = false ↔ p = .exited) := by
  cases p with
  | absent => exact h.elim
  | popping => exact .inl ⟨h.2.2, .inl ⟨h.1, h.2.1⟩⟩
  | polling => exact .inl ⟨h.2.2.1, .inl ⟨h.1, h.2.1⟩⟩
  | writing size left =>
    obtain ⟨hunbroken, frame, hheld, -, hmessage⟩ := h
    exact .inl ⟨hunbroken, .inr ⟨frame, hheld, left, hmessage.symm⟩⟩
  | failing f =>
    obtain ⟨hlink, -, hbroken, -⟩ := h
    exact .inr ⟨f, hbroken, by simp [hlink]⟩
  | unlinking =>
    obtain ⟨hlink, f, -, -, -, hbroken, -⟩ := h
    exact .inr ⟨f, hbroken, by simp [hlink]⟩
  | exited =>
    rcases h with ⟨hheld, hpart, hunbroken, -⟩ | ⟨hlink, f, -, hbroken, -⟩
    · exact .inl ⟨hunbroken, .inl ⟨hheld, hpart⟩⟩
    · exact .inr ⟨f, hbroken, by simp [hlink]⟩

/-- After a write has failed the sender exits in two more turns, and writes nothing in them. -/
theorem Sound.stops (h : Sound m output d done held items part) (hf : failures d.past ≠ [])
    (peer peer' : Acceptance) :
    let d' := (d.act (.turn peer)).act (.turn peer')
    d'.connection.sender = .exited ∧ d'.connection.output = d.connection.output ∧
      d'.connection.sent = d.connection.sent := by
  intro d'
  have hstage := h.stage
  cases hc : d.connection.sender with
  | absent =>
    rw [hc] at hstage
    exact hstage.elim
  | popping =>
    rw [hc] at hstage
    exact absurd hstage.2.2.failures hf
  | polling =>
    rw [hc] at hstage
    exact absurd hstage.2.2.1.failures hf
  | writing size left =>
    rw [hc] at hstage
    exact absurd hstage.1.failures hf
  | failing f =>
    simp only [d', act_turn (send_failing hc)]
    rw [act_turn (send_unlinking rfl)]
    exact ⟨rfl, rfl, rfl⟩
  | unlinking =>
    have hd' : d' = d.act (.turn peer) := by
      simp only [d', act_turn (send_unlinking hc)]
      rw [act, send_exited rfl]
    rw [hd', act_turn (send_unlinking hc)]
    exact ⟨rfl, rfl, rfl⟩
  | exited =>
    have hd' : d' = d := turns_of_exited hc [peer, peer']
    rw [hd']
    exact ⟨hc, rfl, rfl⟩

theorem failures_ne_nil {past : List Found} {f : Fault} (h : Broken past held part f) :
    failures past ≠ [] := by
  rw [h.failures]
  exact List.cons_ne_nil _ _

namespace Sound

theorem exit_whole (h : Sound m output d done held items part) (hf : failures d.past = [])
    (he : d.connection.sender = .exited) :
    held = [] ∧ part = [] ∧ (FoundClosed d.past ∧ items = [] ∨ FoundStopped d.past) := by
  have hstage := h.stage
  rw [he] at hstage
  rcases hstage with ⟨hheld, hpart, -, hend⟩ | ⟨-, f, -, hb, -⟩
  · exact ⟨hheld, hpart, hend.imp_left fun hclosed => ⟨hclosed.1, hclosed.2.2⟩⟩
  · exact absurd hf (failures_ne_nil hb)

theorem exit_broken (h : Sound m output d done held items part) {f : Fault}
    (hb : Broken d.past held part f) (he : d.connection.sender = .exited) :
    ∃ closed, FoundBroken d.past f closed ∧
      errors d.past = if closed = false ∧ f.kind ≠ .brokenPipe ∧ f.kind ≠ .connectionReset ∧
        f.kind ≠ .connectionAborted then 1 else 0 := by
  have hstage := h.stage
  rw [he] at hstage
  rcases hstage with ⟨-, -, hunbroken, -⟩ | ⟨-, f', closed, hb', hfound, herrors⟩
  · exact absurd hunbroken.failures (failures_ne_nil hb)
  · obtain rfl : f' = f := (List.cons.inj (hb'.failures.symm.trans hb.failures)).1
    refine ⟨closed, hfound, herrors.trans ?_⟩
    simp only [← Fault.isDisconnect_eq_false_iff]
    cases closed <;> cases f'.isDisconnect <;> rfl

end Sound

def Action.pushed? : Action → Option Frame
  | .push frame => some frame
  | _ => none

theorem accepted_act (d : Dispatch) (a : Action) :
    (d.act a).accepted = d.accepted ∨
      ∃ frame, a.pushed? = some frame ∧ (d.act a).accepted = d.accepted ++ [frame] := by
  cases a with
  | turn peer =>
    simp only [act]
    cases d.connection.send d.hub peer <;> exact .inl rfl
  | push frame =>
    simp only [act]
    rcases d.connection.queue.push frame with ⟨_ | _, q⟩
    · exact .inr ⟨frame, rfl, rfl⟩
    · exact .inl rfl
  | close | stop => exact .inl rfl

theorem accepted_run (hub : Hub) (c : Connection) (actions : List Action) :
    ∃ more, (run hub c actions).accepted = c.queue.toList ++ more ∧
      more.Sublist (actions.filterMap Action.pushed?) := by
  induction actions using List.reverseRecOn with
  | nil => exact ⟨[], (List.append_nil _).symm, .slnil⟩
  | append_singleton actions a ih =>
    obtain ⟨more, hmore, hsub⟩ := ih
    have hrun : run hub c (actions ++ [a]) = (run hub c actions).act a := by
      rw [run, List.foldl_append]
      rfl
    rw [hrun, filterMap_concat]
    rcases accepted_act (run hub c actions) a with he | ⟨frame, hpushed, he⟩
    · exact ⟨more, he.trans hmore, hsub.trans (List.sublist_append_left ..)⟩
    · refine ⟨more ++ [frame], ?_, ?_⟩
      · rw [he, hmore, List.append_assoc]
      · rw [hpushed]
        exact hsub.append (.refl _)

/-- The sender sends the accepted frames in their order: so many whole, and of the next one at most
a part. It counts exactly those. If it exits without a failed write, it has found the queue empty
and closed, and then everything that was accepted is sent, or it has found the queue empty and the
server stopped. After a failed write it exits, and the link is down then and never else; the server
counts an error if the connection was open and the client had not left. It does exit if the queue
is closed and the client takes what is written. -/
theorem run_dispatches (hub : Hub) (c : Connection) {items : List Frame}
    (hq : c.queue.Holds items) (actions : List Action) :
    let d := run hub c actions
    let k := d.connection.sent.frames
    let whole := c.output ++ (d.accepted.take k).flatMap Message.encode
    (∃ more, d.accepted = items ++ more ∧ more.Sublist (actions.filterMap Action.pushed?)) ∧
    (k ≤ d.accepted.length ∧ d.connection.sent.bytes = volume (d.accepted.take k) ∧
      d.hub.metrics = hub.metrics.gained k d.connection.sent.bytes (errors d.past)) ∧
    (∃ part, d.connection.output = whole ++ part ∧ (part ≠ [] →
      ∃ frame, d.accepted[k]? = some frame ∧ part <+: Message.encode frame)) ∧
    (d.connection.linkUp = false ↔ d.connection.sender = .exited ∧ failures d.past ≠ []) ∧
    (failures d.past = [] → errors d.past = 0 ∧ (d.connection.sender = .exited →
      d.connection.output = whole ∧
        (FoundClosed d.past ∧ k = d.accepted.length ∨ FoundStopped d.past))) ∧
    (failures d.past ≠ [] → ∃ f, failures d.past = [f] ∧
      (∃ frame part, d.connection.output = whole ++ part ∧ d.accepted[k]? = some frame ∧
        part <+: Message.encode frame ∧ part ≠ Message.encode frame) ∧
      (∀ peer peer', let d' := (d.act (.turn peer)).act (.turn peer')
        d'.connection.sender = .exited ∧ d'.connection.output = d.connection.output ∧
          d'.connection.sent = d.connection.sent) ∧
      (d.connection.sender = .exited → ∃ closed, FoundBroken d.past f closed ∧
        errors d.past = if closed = false ∧ f.kind ≠ .brokenPipe ∧ f.kind ≠ .connectionReset ∧
          f.kind ≠ .connectionAborted then 1 else 0)) ∧
    (d.connection.queue.closed = true → ∀ peers : List Acceptance,
      (∀ peer ∈ peers, Takes peer) → load d.connection ≤ peers.length →
      (run hub c (actions ++ peers.map .turn)).connection.sender = .exited) := by
  intro d k whole
  obtain ⟨done, held, rest, part, h⟩ := Sound.run hub c hq actions
  have hdone : d.accepted.take k = done := h.take_accepted
  have hk : k = done.length := congrArg SenderStats.frames h.sent
  have hbytes : d.connection.sent.bytes = volume done := congrArg SenderStats.bytes h.sent
  have hnext : ∀ {frame}, held = [frame] → d.accepted[k]? = some frame := h.getElem?_accepted
  have houtput : d.connection.output = whole ++ part := by
    rw [h.output]
    exact congrArg (c.output ++ List.flatMap Message.encode · ++ part) hdone.symm
  refine ⟨?_, ⟨?_, ?_, ?_⟩, ⟨part, houtput, ?_⟩, ?_, ?_, ?_, ?_⟩
  · rw [← hq.toList]
    exact accepted_run hub c actions
  · rw [hk, h.all, List.length_append, List.length_append]
    omega
  · rw [hdone, hbytes]
  · rw [hbytes, hk]
    exact h.metrics
  · intro hpart
    rcases h.stage.cases with ⟨-, ⟨-, hnone⟩ | ⟨frame, hheld, hprefix⟩⟩ | ⟨f, hb, -⟩
    · exact absurd hnone hpart
    · exact ⟨frame, hnext hheld, hprefix⟩
    · obtain ⟨frame, left, hheld, hmessage, -⟩ := hb.held
      exact ⟨frame, hnext hheld, left, hmessage.symm⟩
  · rcases h.stage.cases with ⟨hunbroken, -⟩ | ⟨f, hb, hlink⟩
    · simp [d, hunbroken.linkUp, hunbroken.failures]
    · exact hlink.trans (iff_self_and.mpr fun _ => failures_ne_nil hb)
  · intro hf
    rcases h.stage.cases with ⟨hunbroken, -⟩ | ⟨f, hb, -⟩
    · refine ⟨hunbroken.errors, fun he => ?_⟩
      obtain ⟨hheld, hpart, hend⟩ := h.exit_whole hf he
      refine ⟨by rw [houtput, hpart, List.append_nil], hend.imp_left fun hclosed => ?_⟩
      refine ⟨hclosed.1, ?_⟩
      rw [hk, h.all, hheld, hclosed.2, List.append_nil, List.append_nil]
    · exact absurd hf (failures_ne_nil hb)
  · intro hf
    rcases h.stage.cases with ⟨hunbroken, -⟩ | ⟨f, hb, -⟩
    · exact absurd hunbroken.failures hf
    · obtain ⟨frame, left, hheld, hmessage, hleft⟩ := hb.held
      refine ⟨f, hb.failures, ⟨frame, part, houtput, hnext hheld, ⟨left, hmessage.symm⟩, ?_⟩,
        h.stops hf, h.exit_broken hb⟩
      intro hpart
      rw [hmessage] at hpart
      exact hleft (List.self_eq_append_right.mp hpart)
  · intro hclosed peers hpeers hload
    rw [run, List.foldl_append]
    exact h.exits hclosed hpeers hload

def tick (timestamp : UInt64) : Frame := ⟨timestamp, 1, 1, [7], [true]⟩

def ticking : Connection :=
  { incoming := [], queue := ((Queue.ofCapacity 2).push (tick 0)).2, output := [1] }

open Dispatch.Action in
def stalled : List Action :=
  [turn (.upTo 9), turn (.upTo 9), push (tick 1), turn (.fault ⟨.interrupted, ""⟩),
    turn (.upTo 99), turn (.upTo 9), turn (.upTo 9), turn (.upTo 1), turn (.upTo 0),
    turn (.upTo 9), turn (.upTo 9)]

theorem run_dispatches_stalled :
    let d := run {} ticking stalled
    (d.accepted = [tick 0, tick 1] ∧ d.connection.sent = ⟨1, 50⟩ ∧
      d.hub.metrics = { framesSent := 1, bytesSent := 50, sendErrors := 1 }) ∧
    (d.connection.linkUp = false ∧ failures d.past = [.shortWrite] ∧
      ∃ closed, FoundBroken d.past .shortWrite closed) ∧
    (∃ frame part, d.connection.output = 1 :: Message.encode (tick 0) ++ part ∧
      frame = tick 1 ∧ part <+: Message.encode frame ∧ part ≠ Message.encode frame) ∧
    (run {} ticking ([.push (tick 1), .close] ++
      (List.replicate 105 (.upTo 99)).map .turn)).connection.sender = .exited := by
  intro d
  have hq : ticking.queue.Holds [tick 0] :=
    (Queue.holds_ofCapacity 2).push_accepted (a := tick 0) rfl
  have haccepted : d.accepted = [tick 0, tick 1] := by decide +kernel
  have hsent : d.connection.sent = ⟨1, 50⟩ := by decide +kernel
  have hfailures : failures d.past = [.shortWrite] := by decide +kernel
  have hexited : d.connection.sender = .exited := by decide +kernel
  obtain ⟨-, -, -, hlink, -, hfail, -⟩ := run_dispatches {} ticking hq stalled
  obtain ⟨-, -, -, -, -, -, hexits⟩ := run_dispatches {} ticking hq [.push (tick 1), .close]
  obtain ⟨f, hf, ⟨frame, part, houtput, hframe, hprefix, hne⟩, -, hend⟩ :=
    hfail (hfailures ▸ List.cons_ne_nil _ _)
  obtain rfl : f = .shortWrite := (List.cons.inj (hf.symm.trans hfailures)).1
  obtain ⟨closed, hbroken, -⟩ := hend hexited
  change d.accepted[d.connection.sent.frames]? = some frame at hframe
  change d.connection.output =
    [1] ++ (d.accepted.take d.connection.sent.frames).flatMap Message.encode ++ part at houtput
  rw [haccepted, hsent] at hframe houtput
  refine ⟨⟨haccepted, hsent, by decide +kernel⟩,
    ⟨hlink.mpr ⟨hexited, hfailures ▸ List.cons_ne_nil _ _⟩, hfailures, closed, hbroken⟩,
    ⟨frame, part, ?_, (Option.some.inj hframe).symm, hprefix, hne⟩, ?_⟩
  · simpa using houtput
  · refine hexits (by decide +kernel) _ (fun peer hpeer => ?_) (by decide +kernel)
    exact ⟨98, List.eq_of_mem_replicate hpeer⟩

end Connection.Dispatch
end SampleCast
