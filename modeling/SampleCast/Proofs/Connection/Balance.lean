import Mathlib.Algebra.GroupWithZero.Nat
import SampleCast.Proofs.Connection.Flow
import SampleCast.Proofs.Connection.Life

/-! The balance of a connection.
Every frame that a connection has queued is in one of three places: it has been sent, the sender has
it in hand or has lost it by a failed write, or it is still in the queue or was discarded with it.
`Parts` is this division, and its parts are what the two workers count. The feeder for its part has
acknowledged every frame that it has queued, except the one that it is about to acknowledge and one
whose acknowledgment the barrier has refused. Main statement: `Life.balance`, that both hold
throughout every life. -/

namespace SampleCast

def CloseReason.unacknowledged : CloseReason → Nat
  | .violated _ => 1
  | _ => 0

namespace FeederPhase

def report? : FeederPhase → Option ConnectionReport
  | .returned (.served report) | .over (.served report) => some report
  | _ => none

theorem report?_over {o : ConnectionOutcome} : report? (.over o) = report? (.returned o) := by
  cases o <;> rfl

def credit? : FeederPhase → Option Nat
  | .reading | .refusing _ | .joining _ => some 0
  | .replying seat _ | .checking seat | .waiting seat | .copying seat _ | .queueing seat .. =>
    some seat.acknowledged
  | .acknowledging seat _ => some (seat.acknowledged + 1)
  | .closing seat reason _ => some (seat.acknowledged + reason.unacknowledged)
  | .returned (.served report) | .over (.served report) =>
    some (report.acknowledged + report.reason.unacknowledged)
  | .abandoning .. | .hangingUp _ | .returned (.refused _) | .over (.refused _) => none

theorem credit?_over {o : ConnectionOutcome} : credit? (.over o) = credit? (.returned o) := by
  cases o <;> rfl

theorem credit?_of_report? {p : FeederPhase} {report : ConnectionReport}
    (h : p.report? = some report) :
    p.credit? = some (report.acknowledged + report.reason.unacknowledged) := by
  unfold report? at h
  split at h
  · cases h
    rfl
  · cases h
    rfl
  · cases h

end FeederPhase

def SenderPhase.Keeps (failures : List Fault) (held : List Frame) : SenderPhase → Prop
  | .absent | .popping | .polling => failures = [] ∧ held = []
  | .writing size _ => failures = [] ∧ ∃ f, held = [f] ∧ size = (Message.encode f).length
  | .failing _ | .unlinking => failures.length = 1 ∧ held.length = 1
  | .exited => failures.length ≤ 1 ∧ held.length = failures.length

theorem SenderPhase.Keeps.length_le {failures : List Fault} {held : List Frame} {p : SenderPhase}
    (h : p.Keeps failures held) : failures.length ≤ 1 := by
  cases p with
  | absent | popping | polling | writing =>
    rw [h.1]
    exact Nat.zero_le 1
  | failing | unlinking => exact Nat.le_of_eq h.1
  | exited => exact h.1

namespace Connection

def Leaves (c : Connection) (items : List Frame) : Prop :=
  match c.feeder.report? with
  | none => c.queue.Holds items
  | some report =>
    c.sender = .exited ∧ report.sender = c.sent ∧ report.discarded = items.length

def volume (frames : List Frame) : Nat := (frames.map fun f => (Message.encode f).length).sum

structure Parts (reply : List UInt8) (frames : List Frame) (failures : List Fault) (c : Connection)
    (done held items : List Frame) : Prop where
  all : frames = done ++ held ++ items
  sent : c.sent = ⟨done.length, volume done⟩
  taken : c.sender ≠ .absent → reply ++ done.flatMap Message.encode <+: c.output
  keeps : c.sender.Keeps failures held
  leaves : c.Leaves items

variable {station : Station} {hub hub' : Hub} {reply : List UInt8} {frames : List Frame}
  {failures : List Fault} {done held items : List Frame} {c c' : Connection}
  {q : Queue Frame} {f : Frame}

theorem volume_concat : volume (frames ++ [f]) = volume frames + (Message.encode f).length := by
  simp [volume]

namespace Leaves

theorem holds (h : c.Leaves items) (hr : c.feeder.report? = none) : c.queue.Holds items := by
  rwa [Leaves, hr] at h

theorem of_holds (h : c.queue.Holds items) (hr : c.feeder.report? = none) : c.Leaves items := by
  rwa [Leaves, hr]

theorem report?_eq_none (h : c.Leaves items) (hs : c.sender ≠ .exited) :
    c.feeder.report? = none := by
  cases hr : c.feeder.report? with
  | none => rfl
  | some report =>
    rw [Leaves, hr] at h
    exact absurd h.1 hs

end Leaves

namespace Parts

theorem accept (station : Station) (incoming : List Reading) :
    Parts reply [] [] (.accept station incoming) [] [] [] :=
  ⟨rfl, rfl, fun h => absurd rfl h, ⟨rfl, rfl⟩, Queue.holds_ofCapacity _⟩

theorem keep (h : Parts reply frames failures c done held items) (hsent : c'.sent = c.sent)
    (hsender : c'.sender = c.sender) (hout : c.output <+: c'.output) (hl : c'.Leaves items) :
    Parts reply frames failures c' done held items := by
  refine ⟨h.all, hsent.trans h.sent, ?_, ?_, hl⟩
  · intro hs
    exact (h.taken (hsender ▸ hs)).trans hout
  · rw [hsender]
    exact h.keeps

theorem refeed {p : FeederPhase} (h : Parts reply frames failures c done held items)
    (hc : c.feeder.report? = none) (hp : p.report? = none) :
    Parts reply frames failures { c with feeder := p } done held items :=
  h.keep rfl rfl List.prefix_rfl (.of_holds (h.leaves.holds hc) hp)

theorem begin {seat : Seat} (h : Parts reply frames failures c done held items)
    (hf : Flow reply frames c) (hc : c.feeder = .replying seat []) :
    Parts reply frames failures { c with sender := .popping, feeder := .checking seat } done held
      items := by
  have ha : c.sender = .absent := by
    apply hf.absent
    rw [hc]
    exact id
  have hkeeps := h.keeps
  have hg := hf.greeting ha
  rw [hc, Greeting, List.flatten_nil, List.append_nil] at hg
  have hframes : frames = [] := by
    have hs := hf.sending
    rw [ha] at hs
    exact hs.1
  have hdone : done = [] := by
    have hall := h.all
    rw [hframes, List.append_assoc] at hall
    exact (List.nil_eq_append_iff.mp hall).1
  rw [ha] at hkeeps
  refine ⟨h.all, h.sent, ?_, hkeeps, .of_holds (h.leaves.holds (by rw [hc]; rfl)) rfl⟩
  intro _
  simp [hdone, hg]

theorem push {seat : Seat} {g : Nat} (h : Parts reply frames failures c done held items)
    (hc : c.feeder = .queueing seat g f) (hq : c.queue.push f = (.accepted, q)) :
    Parts reply (frames ++ [f]) failures { c with queue := q, feeder := .acknowledging seat g } done
      held (items ++ [f]) := by
  have hholds : c.queue.Holds items := h.leaves.holds (by rw [hc]; rfl)
  refine ⟨?_, h.sent, h.taken, h.keeps, .of_holds (hholds.push_accepted hq) rfl⟩
  rw [h.all, List.append_assoc _ items]

theorem drain {seat : Seat} {reason : CloseReason}
    (h : Parts reply frames failures c done held items) (hs : c.sender = .exited)
    (hc : c.feeder = .closing seat reason .draining) :
    Parts reply frames failures
      { c with
        queue := c.queue.drain.2
        feeder := .returned (.served (c.report seat reason c.queue.drain.1)) } done held items := by
  have hholds : c.queue.Holds items := h.leaves.holds (by rw [hc]; rfl)
  exact h.keep rfl rfl List.prefix_rfl ⟨hs, rfl, hholds.drain.1⟩

theorem finish {o : ConnectionOutcome} (h : Parts reply frames failures c done held items)
    (hc : c.feeder = .returned o) :
    Parts reply frames failures { c with feeder := .over o } done held items := by
  refine h.keep rfl rfl List.prefix_rfl ?_
  have hl := h.leaves
  rw [Leaves, hc] at hl
  rw [Leaves, FeederPhase.report?_over]
  exact hl

end Parts

theorem report?_consider {r : Except WireError Request} :
    (consider station r).report? = none := by
  rcases consider_cases station r with ⟨e, he⟩ | ⟨channels, he⟩ <;> rw [he] <;> rfl

theorem credit?_consider {r : Except WireError Request} :
    (consider station r).credit? = some 0 := by
  rcases consider_cases station r with ⟨e, he⟩ | ⟨channels, he⟩ <;> rw [he] <;> rfl

theorem FeederStep.parts (h : FeederStep station hub c hub' c')
    (hf : Flow (Reply.encode ⟨station.rate⟩) frames c)
    (hp : Parts (Reply.encode ⟨station.rate⟩) frames failures c done held items) :
    Parts (Reply.encode ⟨station.rate⟩)
      (frames ++ ((c.feeder.queued? c'.feeder).map (·.2)).toList) failures c' done held
      (items ++ ((c.feeder.queued? c'.feeder).map (·.2)).toList) := by
  have quiet : c.feeder.queued? c'.feeder = none →
      Parts (Reply.encode ⟨station.rate⟩) frames failures c' done held items →
      Parts (Reply.encode ⟨station.rate⟩)
        (frames ++ ((c.feeder.queued? c'.feeder).map (·.2)).toList) failures c' done held
        (items ++ ((c.feeder.queued? c'.feeder).map (·.2)).toList) := by
    intro hn hp'
    rw [hn]
    simpa using hp'
  have holds : c.feeder.report? = none → c.queue.Holds items := hp.leaves.holds
  cases h with
  | untimed hc | refuse hc | join hc | nextPart hc | replyBroken hc | abandon hc | linkUp hc _
  | linkDown hc _ | advanced hc _ | timedOut hc _ | stopped hc _ | copy hc _ | stale hc _
  | acknowledge hc _ | violate hc _ | leave hc | record hc | joined hc _ =>
    exact quiet (by rw [hc]; rfl) (hp.refeed (by rw [hc]; rfl) rfl)
  | read hc hr =>
    exact quiet (by rw [hc]; rfl) (hp.keep rfl rfl List.prefix_rfl
      (.of_holds (holds (by rw [hc]; rfl)) report?_consider))
  | begin hc => exact quiet (by rw [hc]; rfl) (hp.begin hf hc)
  | reply hc =>
    exact quiet (by rw [hc]; rfl) (hp.keep rfl rfl (List.prefix_append _ _)
      (.of_holds (holds (by rw [hc]; rfl)) rfl))
  | queue hc hq =>
    rw [hc]
    exact hp.push hc hq
  | overflow hc hq =>
    cases Queue.eq_of_push_overflow hq
    exact quiet (by rw [hc]; rfl) (hp.refeed (by rw [hc]; rfl) rfl)
  | closeQueue hc =>
    exact quiet (by rw [hc]; rfl) (hp.keep rfl rfl List.prefix_rfl
      (.of_holds (holds (by rw [hc]; rfl)).close rfl))
  | hangUp hc | dismiss hc =>
    exact quiet (by rw [hc]; rfl) (hp.keep rfl rfl List.prefix_rfl
      (.of_holds (holds (by rw [hc]; rfl)) rfl))
  | @drain seat reason hc =>
    exact quiet (by rw [hc]; rfl) (hp.drain (hf.drained seat reason hc) hc)
  | finish hc => exact quiet (by rw [hc]; rfl) (hp.finish hc)

theorem FeederStep.credit (h : FeederStep station hub c hub' c') {k : Nat}
    (hk : ∀ n, c.feeder.credit? = some n → k = n) {n : Nat} (hn : c'.feeder.credit? = some n) :
    k + (c.feeder.queued? c'.feeder).toList.length = n := by
  have quiet : c.feeder.queued? c'.feeder = none → c.feeder.credit? = some n →
      k + (c.feeder.queued? c'.feeder).toList.length = n := by
    intro hq hc
    rw [hq]
    exact hk n hc
  cases h with
  | untimed hc => exact quiet (by rw [hc]; rfl) (by rw [hc, ← hn]; rfl)
  | read hc hr =>
    rw [credit?_consider] at hn
    exact quiet (by rw [hc]; rfl) (by rw [hc, ← hn]; rfl)
  | queue hc hq =>
    rw [hc] at hk ⊢
    cases hn
    rw [hk _ rfl]
    rfl
  | refuse hc | replyBroken hc | abandon hc | dismiss hc => cases hn
  | finish hc =>
    rw [FeederPhase.credit?_over] at hn
    exact quiet (by rw [hc]; rfl) (by rw [hc, hn])
  | join hc | begin hc | nextPart hc | reply hc | linkUp hc _ | linkDown hc _ | advanced hc _
  | timedOut hc _ | stopped hc _ | copy hc _ | stale hc _ | overflow hc _ | acknowledge hc _
  | violate hc _ | leave hc | record hc | closeQueue hc | hangUp hc | joined hc _ | drain hc =>
    exact quiet (by rw [hc]; rfl) (by rw [hc, ← hn]; rfl)

namespace Parts

theorem items_of_sending (h : Parts reply frames failures c done held items)
    (hs : c.sender ≠ .exited) : c.queue.Holds items :=
  h.leaves.holds (h.leaves.report?_eq_none hs)

theorem pop (h : Parts reply frames failures c done held items) (hc : c.sender = .popping)
    (hq : c.queue.popOrTimeOut = (.item f, q)) :
    ∃ rest, Parts reply frames failures
      { c with queue := q, sender := .writing (Message.encode f).length (Message.encode f) } done
      [f] rest := by
  have he : c.sender ≠ .exited := by simp [hc]
  have hr := h.leaves.report?_eq_none he
  have hkeeps := h.keeps
  rw [hc] at hkeeps
  obtain ⟨rfl, rfl⟩ := hkeeps
  rcases (h.items_of_sending he).popOrTimeOut with ⟨rfl, hp⟩ | ⟨f', rest, q', rfl, hp, hrest⟩
  · rw [hp] at hq
    split_ifs at hq <;> cases hq
  · rw [hp] at hq
    cases hq
    refine ⟨rest, ?_, h.sent, fun _ => h.taken (by simp [hc]), ⟨rfl, f, rfl, rfl⟩,
      .of_holds hrest hr⟩
    rw [h.all]
    simp

theorem sent_one {size : Nat} (h : Parts reply frames failures c done held items)
    (hf : Flow reply frames c) (hc : c.sender = .writing size []) :
    ∃ f, Parts reply frames failures
      { c with sent := ⟨c.sent.frames + 1, c.sent.bytes + size⟩, sender := .popping } (done ++ [f])
      [] items := by
  have he : c.sender ≠ .exited := by simp [hc]
  have hr := h.leaves.report?_eq_none he
  have hkeeps := h.keeps
  have hsending := hf.sending
  rw [hc] at hkeeps hsending
  obtain ⟨rfl, f, rfl, rfl⟩ := hkeeps
  obtain ⟨done', f', items', part, hall, hitems', hpart, hout⟩ := hsending
  rw [List.append_nil] at hpart
  -- The queue holds one list of frames only, so that both divisions are the same.
  have hsame : items' = items := by rw [← hitems'.toList, (h.items_of_sending he).toList]
  have hboth : done ++ [f] ++ items = done' ++ [f'] ++ items := by
    rw [← h.all, hall, hsame, List.append_assoc, List.singleton_append]
  have hdone : done ++ [f] = done' ++ [f'] := List.append_cancel_right hboth
  refine ⟨f, ?_, ?_, ?_, ⟨rfl, rfl⟩, .of_holds (h.items_of_sending he) hr⟩
  · rw [h.all, List.append_nil]
  · rw [volume_concat, List.length_append, List.length_singleton, h.sent]
  · intro _
    change _ <+: c.output
    rw [hdone, hout, ← hpart, List.flatMap_append]
    simp

theorem resend {failures' : List Fault} (h : Parts reply frames failures c done held items)
    (ha : c.sender ≠ .absent) (he : c.sender ≠ .exited) (hsent : c'.sent = c.sent)
    (hfeeder : c'.feeder = c.feeder) (hqueue : c'.queue = c.queue) (hout : c.output <+: c'.output)
    (hk : c'.sender.Keeps failures' held) : Parts reply frames failures' c' done held items := by
  refine ⟨h.all, hsent.trans h.sent, fun _ => (h.taken ha).trans hout, hk, ?_⟩
  exact .of_holds (hqueue ▸ h.items_of_sending he) (hfeeder ▸ h.leaves.report?_eq_none he)

end Parts

theorem SenderStep.parts (h : SenderStep hub c hub' c') (hf : Flow reply frames c)
    (hp : Parts reply frames failures c done held items) :
    ∃ done held items,
      Parts reply frames (failures ++ (c.sender.failed? c'.sender).toList) c' done held items := by
  have quiet : ∀ {done held items}, c.sender.failed? c'.sender = none →
      Parts reply frames failures c' done held items →
      ∃ done held items,
        Parts reply frames (failures ++ (c.sender.failed? c'.sender).toList) c' done held
          items := by
    intro done held items hn hp'
    rw [hn, Option.toList_none, List.append_nil]
    exact ⟨done, held, items, hp'⟩
  have hkeeps := hp.keeps
  cases h with
  | pop hc hq =>
    obtain ⟨rest, hp'⟩ := hp.pop hc hq
    exact quiet (by rw [hc]; rfl) hp'
  | sent hc =>
    obtain ⟨f, hp'⟩ := hp.sent_one hf hc
    exact quiet (by rw [hc]; rfl) hp'
  | closed hc hq | empty hc hq =>
    rw [hc] at hkeeps
    cases (hp.items_of_sending (by simp [hc])).eq_of_popOrTimeOut hq nofun
    refine quiet (by rw [hc]; rfl) (hp.resend (by simp [hc]) (by simp [hc]) rfl rfl rfl
      List.prefix_rfl ?_)
    obtain ⟨rfl, rfl⟩ := hkeeps
    simp [SenderPhase.Keeps]
  | stop hc _ | resume hc _ =>
    rw [hc] at hkeeps
    refine quiet (by rw [hc]; rfl) (hp.resend (by simp [hc]) (by simp [hc]) rfl rfl rfl
      List.prefix_rfl ?_)
    obtain ⟨rfl, rfl⟩ := hkeeps
    simp [SenderPhase.Keeps]
  | write hc _ =>
    rw [hc] at hkeeps
    exact quiet (by rw [hc]; rfl) (hp.resend (by simp [hc]) (by simp [hc]) rfl rfl rfl
      (List.prefix_append _ _) hkeeps)
  | writeBroken hc _ =>
    rw [hc] at hkeeps ⊢
    obtain ⟨rfl, f, rfl, -⟩ := hkeeps
    exact ⟨_, _, _, hp.resend (by simp [hc]) (by simp [hc]) rfl rfl rfl List.prefix_rfl ⟨rfl, rfl⟩⟩
  | fail hc =>
    rw [hc] at hkeeps
    exact quiet (by rw [hc]; rfl) (hp.resend (by simp [hc]) (by simp [hc]) rfl rfl rfl
      List.prefix_rfl hkeeps)
  | unlink hc =>
    rw [hc] at hkeeps
    exact quiet (by rw [hc]; rfl) (hp.resend (by simp [hc]) (by simp [hc]) rfl rfl rfl
      List.prefix_rfl ⟨Nat.le_of_eq hkeeps.1, hkeeps.2.trans hkeeps.1.symm⟩)

namespace Life

structure Balance (station : Station) (l : Life) : Prop where
  flow : Flow (Reply.encode ⟨station.rate⟩) l.frames l.present
  parts : ∃ done held items,
    Parts (Reply.encode ⟨station.rate⟩) l.frames l.failures l.present done held items
  credit : ∀ n, l.present.feeder.credit? = some n → l.frames.length = n

namespace Balance

variable {l : Life} {peer : Acceptance} {c : Connection}

theorem start (station : Station) (incoming : List Reading) :
    Balance station { present := .accept station incoming } := by
  refine ⟨.accept station incoming, ⟨[], [], [], .accept station incoming⟩, ?_⟩
  intro n hn
  cases hn
  rfl

theorem feed (h : l.Balance station) (hs : FeederStep station hub l.present hub' c) :
    (l.grow (.feed hub peer) c).Balance station := by
  obtain ⟨done, held, items, hp⟩ := h.parts
  refine ⟨?_, ⟨done, held, items ++ ((l.present.feeder.queued? c.feeder).map (·.2)).toList, ?_⟩,
    ?_⟩
  · rw [frames_grow]
    exact hs.flow h.flow
  · rw [frames_grow, failures_grow, hs.failed?, Option.toList_none, List.append_nil]
    exact hs.parts h.flow hp
  · intro n hn
    rw [frames_grow, List.length_append, Option.toList_map, List.length_map]
    exact hs.credit h.credit hn

theorem send (h : l.Balance station) (hs : SenderStep hub l.present hub' c) :
    (l.grow (.send hub peer) c).Balance station := by
  obtain ⟨done, held, items, hp⟩ := h.parts
  have hfeeder : l.present.feeder.queued? c.feeder = none := by
    rw [hs.feeder, FeederPhase.queued?_self]
  refine ⟨?_, ?_, ?_⟩
  · rw [frames_grow, hfeeder]
    simpa using hs.flow h.flow
  · rw [frames_grow, hfeeder, failures_grow]
    simpa using hs.parts h.flow hp
  · intro n hn
    rw [present_grow, hs.feeder] at hn
    rw [frames_grow, hfeeder]
    simpa using h.credit n hn

end Balance

theorem Balance.length_failures_le {l : Life} (h : l.Balance station) : l.failures.length ≤ 1 := by
  obtain ⟨done, held, items, hp⟩ := h.parts
  exact hp.keeps.length_le

theorem balance (station : Station) (incoming : List Reading) (turns : List Turn) :
    (run station incoming turns).Balance station :=
  run_induction (P := Balance station) (.start station incoming) (fun _ _ _ _ _ h hs => h.feed hs)
    (fun _ _ _ _ _ h hs => h.send hs) turns

end Life

/-- The report says what has become of every frame that the connection has queued: it was sent, it
was discarded, or a write of it failed. -/
structure Accounts (reply : List UInt8) (frames : List Frame) (failures : List Fault)
    (output : List UInt8) (report : ConnectionReport) : Prop where
  queued : frames.length = report.sender.frames + report.discarded + failures.length
  failures : failures.length ≤ 1
  acknowledged : frames.length = report.acknowledged + report.reason.unacknowledged
  bytes : report.sender.bytes = volume (frames.take report.sender.frames)
  taken : reply ++ (frames.take report.sender.frames).flatMap Message.encode <+: output

theorem Life.Balance.accounts {l : Life} {report : ConnectionReport} (h : l.Balance station)
    (hr : l.present.feeder.report? = some report) :
    Accounts (Reply.encode ⟨station.rate⟩) l.frames l.failures l.present.output report := by
  obtain ⟨done, held, items, hp⟩ := h.parts
  have hleaves := hp.leaves
  have hkeeps := hp.keeps
  rw [Leaves, hr] at hleaves
  obtain ⟨hexited, hsender, hdiscarded⟩ := hleaves
  rw [hexited] at hkeeps
  obtain ⟨hfail, hheld⟩ := hkeeps
  have hframes : report.sender.frames = done.length := by rw [hsender, hp.sent]
  have hdone : l.frames.take report.sender.frames = done := by
    rw [hframes, hp.all, List.append_assoc, List.take_left]
  refine ⟨?_, hfail, h.credit _ (FeederPhase.credit?_of_report? hr), ?_, ?_⟩
  · rw [hp.all, hframes, hdiscarded, ← hheld]
    simp only [List.length_append]
    omega
  · rw [hdone, hsender, hp.sent]
  · rw [hdone]
    exact hp.taken (by simp [hexited])

end Connection
end SampleCast
