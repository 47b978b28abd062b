import Mathlib.Data.UInt
import SampleCast.Proofs.Connection.Agreement
import SampleCast.Proofs.Connection.Balance
import SampleCast.Proofs.Connection.Unread

/-! The gate of a connection.
A client that asks for channels that it may have is let in: the feeder joins the barrier and
replies, and what else the client has sent is never looked at. Any other is refused: it is sent
nothing, the failure is counted, and nothing else that the connections share has changed. Which of
the two it is depends on the bytes that the client sends and not on how they arrive. Main statement:
`run_gates`, on every connection of a server with checked settings. -/

namespace SampleCast

open Reading (Carries)

/-- What a client may ask for: some channels, no more than a request and a message may hold, all of
which the source has. -/
structure Station.Admits (station : Station) (channels : List UInt32) : Prop where
  nonempty : 0 < channels.length
  few : channels.length ≤ station.settings.maxRequestedChannels.toNat
  fitting : channels.length ≤ station.settings.maxChannelsPerMessage.toNat
  served : station.Serves channels

theorem Station.le_requestLimit_iff {station : Station} {n : Nat} :
    n ≤ station.requestLimit.toNat ↔
      n ≤ station.settings.maxRequestedChannels.toNat ∧
        n ≤ station.settings.maxChannelsPerMessage.toNat := by
  rw [requestLimit, UInt32.toNat_min]
  exact Nat.le_min

theorem ServerSettings.handshakeTimeout_ne_zero {s : ServerSettings} (h : s.validate = .ok ()) :
    s.handshakeTimeout ≠ 0 := by
  intro h0
  unfold validate flaw? at h
  split_ifs at h

theorem Request.validate_of_serves {station : Station} {channels : List UInt32}
    (h : station.Serves channels) : Request.validate ⟨channels⟩ station.channelCount = .ok () := by
  have hnone : channels.find? (station.channelCount ≤ ·) = none := by
    refine List.find?_eq_none.mpr fun c hc => ?_
    simpa using h c hc
  simp only [validate, hnone]

theorem Reply.length_parts (rate : UInt32) :
    (parts ⟨rate⟩).flatten.length + (parts ⟨rate⟩).length = 23 := by
  simp only [parts, List.flatten_cons, List.flatten_nil, List.length_append,
    BigEndian.length_encode, List.length_cons, List.length_nil]
  decide

namespace Connection

variable {station : Station} {incoming : List Reading} {content : List UInt8} {hub : Hub}
  {peer : Acceptance} {channels : List UInt32} {more : List UInt8} {e : ConnectionError}
  {c c' : Connection} {n : Nat}

theorem read_of_admits (ha : station.Admits channels)
    (hc : Carries incoming (Request.encode ⟨channels⟩ ++ more)) :
    (Request.read station.requestLimit incoming).1 = .ok ⟨channels⟩ := by
  have hfew : channels.length ≤ station.requestLimit.toNat :=
    Station.le_requestLimit_iff.mpr ⟨ha.few, ha.fitting⟩
  obtain ⟨rest, hr, -⟩ := Request.read_encode (r := ⟨channels⟩) ha.nonempty hfew hc
  rw [hr]

theorem consider_of_admits (ha : station.Admits channels) :
    consider station (.ok ⟨channels⟩) = .joining channels := by
  simp only [consider, Request.validate_of_serves ha.served]

theorem eq_request_of_consider {r : Except WireError Request}
    (h : consider station r = .refusing e) : ∃ w, e = .request w := by
  unfold consider at h
  split at h
  · cases h
    exact ⟨_, rfl⟩
  · split at h
    · cases h
      exact ⟨_, rfl⟩
    · cases h

theorem refused_of_not_admits (hc : Carries incoming content)
    (hn : ∀ channels more, content = Request.encode ⟨channels⟩ ++ more →
      ¬ station.Admits channels) :
    ∃ w, consider station (Request.read station.requestLimit incoming).1 =
      .refusing (.request w) := by
  rcases hr : Request.read station.requestLimit incoming with ⟨r, rest⟩
  rcases consider_cases station r with ⟨e, he⟩ | ⟨channels, he⟩
  · obtain ⟨w, rfl⟩ := eq_request_of_consider he
    exact ⟨w, he⟩
  · obtain ⟨⟨_⟩, rfl, rfl, hserved⟩ := ok_of_consider he
    obtain ⟨hbytes, hsome, hfew⟩ := Request.eq_encode_of_read hr
    rw [hc.bytes] at hbytes
    obtain ⟨hfew, hfitting⟩ := Station.le_requestLimit_iff.mp hfew
    exact absurd ⟨hsome, hfew, hfitting, hserved⟩ (hn _ _ hbytes)

theorem feed_joining (hc : c.feeder = .joining channels) (station : Station) (hub : Hub)
    (peer : Acceptance) :
    c.feed station hub peer = some ({ hub with barrier := hub.barrier.join.2 },
      { c with
        feeder := .replying ⟨hub.barrier.nextId, channels, hub.barrier.generation, 0⟩
          (Reply.parts ⟨station.rate⟩) }) := by
  simp only [feed, hc]
  rfl

def Turn.fed? : Turn → Option Hub
  | .feed hub _ => some hub
  | .send .. => none

def refusal (e : ConnectionError) : Nat → FeederPhase
  | 0 => .reading
  | 1 => .refusing e
  | 2 => .hangingUp e
  | 3 => .returned (.refused e)
  | _ => .over (.refused e)

def refusalHub (hub : Hub) : Nat → Option Hub
  | 0 | 2 => some hub
  | 1 => some { hub with
      metrics := { hub.metrics with handshakeFailures := hub.metrics.handshakeFailures + 1 } }
  | 3 => some { hub with
      metrics := { hub.metrics with activeConnections := hub.metrics.activeConnections - 1 } }
  | _ => none

theorem joined?_refusal (e : ConnectionError) (n : Nat) (p : FeederPhase) :
    (refusal e n).joined? p = none := by
  rcases n with _ | _ | _ | _ | n <;> rfl

theorem refusal_succ (h : refusalHub hub n = none) : refusal e (n + 1) = refusal e n := by
  rcases n with _ | _ | _ | _ | n
  · cases h
  · cases h
  · cases h
  · cases h
  · rfl

theorem feed_refusal (ht : station.settings.handshakeTimeout ≠ 0)
    (he : consider station (Request.read station.requestLimit incoming).1 = .refusing e)
    (hc : c.feeder = refusal e n) (hi : n = 0 → c.incoming = incoming) (hub : Hub)
    (peer : Acceptance) :
    (refusalHub hub n = none ∧ c.feed station hub peer = none) ∨
    ∃ hub' c', refusalHub hub n = some hub' ∧ c.feed station hub peer = some (hub', c') ∧
      c'.feeder = refusal e (n + 1) ∧ c'.sender = c.sender ∧ c'.output = c.output := by
  unfold feed
  rcases n with _ | _ | _ | _ | n
  · simp only [hc, refusal, if_neg ht]
    exact .inr ⟨_, _, rfl, rfl, (hi rfl).symm ▸ he, rfl, rfl⟩
  · simp only [hc, refusal]
    exact .inr ⟨_, _, rfl, rfl, rfl, rfl, rfl⟩
  · simp only [hc, refusal]
    exact .inr ⟨_, _, rfl, rfl, rfl, rfl, rfl⟩
  · simp only [hc, refusal]
    exact .inr ⟨_, _, rfl, rfl, rfl, rfl, rfl⟩
  · simp only [hc, refusal]
    exact .inl ⟨rfl, trivial⟩

/-- If the client takes some of what it is sent, there is less left of the reply after each action,
until the sender begins. -/
theorem feed_replying {seat : Seat} {parts : List (List UInt8)}
    (hc : c.feeder = .replying seat parts) (station : Station) (hub : Hub) (n : Nat) :
    ∃ c', c.feed station hub (.upTo (n + 1)) = some (hub, c') ∧
      (c'.sender ≠ .absent ∨ ∃ left, c'.feeder = .replying seat left ∧
        left.flatten.length + left.length < parts.flatten.length + parts.length) := by
  unfold feed
  rcases parts with _ | ⟨_ | ⟨b, bs⟩, parts⟩
  · simp only [hc]
    exact ⟨_, rfl, .inl nofun⟩
  · simp only [hc]
    refine ⟨_, rfl, .inr ⟨parts, rfl, ?_⟩⟩
    simp
  · simp only [hc, Acceptance.settle]
    refine ⟨_, rfl, .inr ⟨_, rfl, ?_⟩⟩
    simp only [List.flatten_cons, List.length_append, List.length_drop, List.length_cons]
    omega

theorem FeederStep.sender_ne_absent {hub' : Hub} (h : FeederStep station hub c hub' c')
    (hs : c.sender ≠ .absent) : c'.sender ≠ .absent := by
  cases h with
  | begin => exact nofun
  | _ => exact hs

theorem SenderStep.sender_ne_absent {hub' : Hub} (h : SenderStep hub c hub' c') :
    c'.sender ≠ .absent := by
  cases h <;> exact nofun

namespace Life

variable {l : Life} {hubs : List Hub} {turns : List Turn}

theorem act_feed {hub' : Hub} (h : l.present.feed station hub peer = some (hub', c)) :
    l.act station (.feed hub peer) = l.grow (.feed hub peer) c := act_of_take h

/-- The connection is refused, and its feeder has come to its `n`-th phase on the way. -/
structure Refuses (e : ConnectionError) (incoming : List Reading) (n : Nat) (l : Life) : Prop where
  feeder : l.present.feeder = refusal e n
  unread : n = 0 → l.present.incoming = incoming
  sender : l.present.sender = .absent
  output : l.present.output = []
  joined : l.joined? = none

theorem refuses_run (ht : station.settings.handshakeTimeout ≠ 0)
    (he : consider station (Request.read station.requestLimit incoming).1 = .refusing e)
    (turns : List Turn) :
    (run station incoming turns).Refuses e incoming (turns.filterMap Turn.fed?).length := by
  induction turns using List.reverseRecOn with
  | nil => exact ⟨rfl, fun _ => rfl, rfl, rfl, rfl⟩
  | append_singleton turns t ih =>
    rw [run_concat, filterMap_concat, List.length_append]
    cases t with
    | send hub peer =>
      have hnone : Turn.take station (run station incoming turns).present (.send hub peer) =
          none := by
        simp only [Turn.take, send, ih.sender]
      rw [act, hnone]
      exact ih
    | feed hub peer =>
      rcases feed_refusal ht he ih.feeder ih.unread hub peer with
        ⟨hend, hnone⟩ | ⟨hub', c', -, hsome, hfeeder, hsender, houtput⟩
      · have htake : Turn.take station (run station incoming turns).present (.feed hub peer) =
            none := hnone
        rw [act, htake]
        exact ⟨ih.feeder.trans (refusal_succ hend).symm, (absurd · (Nat.succ_ne_zero _)),
          ih.sender, ih.output, ih.joined⟩
      · rw [act_feed hsome]
        refine ⟨hfeeder, (absurd · (Nat.succ_ne_zero _)), hsender.trans ih.sender,
          houtput.trans ih.output, ?_⟩
        rw [joined?_grow, ih.joined, ih.feeder, joined?_refusal]
        rfl

theorem Refuses.feed (h : l.Refuses e incoming n)
    (ht : station.settings.handshakeTimeout ≠ 0)
    (he : consider station (Request.read station.requestLimit incoming).1 = .refusing e) (hub : Hub)
    (peer : Acceptance) :
    (l.present.feed station hub peer).map (·.1) = refusalHub hub n := by
  rcases feed_refusal ht he h.feeder h.unread hub peer with
    ⟨hend, hnone⟩ | ⟨hub', c', hhub, hsome, -⟩
  · rw [hend, hnone]
    rfl
  · rw [hhub, hsome]
    rfl

inductive Enters (incoming : List Reading) (channels : List UInt32) : List Hub → Life → Prop
  | unread {l : Life} (hf : l.present.feeder = .reading) (hi : l.present.incoming = incoming)
      (hj : l.joined? = none) : Enters incoming channels [] l
  | read {l : Life} {hub : Hub} (hf : l.present.feeder = .joining channels)
      (hj : l.joined? = none) : Enters incoming channels [hub] l
  | joined {l : Life} {hub hub' : Hub} {hubs : List Hub}
      (hj : l.joined? = some ⟨hub'.barrier.nextId, channels, hub'.barrier.generation, 0⟩) :
      Enters incoming channels (hub :: hub' :: hubs) l

theorem Enters.send (h : l.Enters incoming channels hubs) {hub' : Hub}
    (hs : SenderStep hub l.present hub' c) :
    (l.grow (.send hub peer) c).Enters incoming channels hubs := by
  have hjoined : (l.grow (.send hub peer) c).joined? = l.joined? := by
    rw [joined?_grow, hs.feeder, FeederPhase.joined?_self, Option.or_none]
  cases h with
  | unread hf hi hj =>
    exact .unread (hs.feeder.trans hf) (hs.incoming_eq.trans hi) (hjoined.trans hj)
  | read hf hj => exact .read (hs.feeder.trans hf) (hjoined.trans hj)
  | joined hj => exact .joined (hjoined.trans hj)

theorem Enters.feed (h : l.Enters incoming channels hubs)
    (ht : station.settings.handshakeTimeout ≠ 0)
    (hr : consider station (Request.read station.requestLimit incoming).1 = .joining channels)
    (hub : Hub) (peer : Acceptance) :
    (l.act station (.feed hub peer)).Enters incoming channels (hubs ++ [hub]) := by
  cases h with
  | unread hf hi hj =>
    have hfeed : l.present.feed station hub peer = some (hub,
        { l.present with
          incoming := (Request.read station.requestLimit l.present.incoming).2
          feeder := .joining channels }) := by
      simp only [Connection.feed, hf, if_neg ht, hi, hr]
    rw [act_feed hfeed]
    refine .read rfl ?_
    rw [joined?_grow, hj, hf]
    rfl
  | read hf hj =>
    rw [act_feed (feed_joining hf ..)]
    refine .joined ?_
    rw [joined?_grow, hj, hf]
    rfl
  | joined hj =>
    rw [act]
    split
    · exact .joined hj
    · refine .joined ?_
      rw [joined?_grow, hj]
      rfl

theorem Enters.joining (h : l.Enters incoming channels hubs) (hn : hubs.length = 1) :
    l.present.feeder = .joining channels := by
  cases h with
  | unread => cases hn
  | read hf hj => exact hf
  | joined => cases hn

theorem Enters.joined?_eq (h : l.Enters incoming channels hubs) :
    l.joined? =
      hubs[1]?.map fun hub => ⟨hub.barrier.nextId, channels, hub.barrier.generation, 0⟩ := by
  cases h with
  | unread hf hi hj => exact hj
  | read hf hj => exact hj
  | joined hj => exact hj

theorem Enters.ne_refusing (h : l.Enters incoming channels hubs) (hm : l.IsMember)
    (e : ConnectionError) : l.present.feeder ≠ .refusing e := by
  intro hf
  cases h with
  | unread hf' _ _ => exact absurd (hf'.symm.trans hf) nofun
  | read hf' _ => exact absurd (hf'.symm.trans hf) nofun
  | joined hj =>
    have hnone := (hm.unjoined (by rw [hf]; trivial)).1
    rw [hj] at hnone
    cases hnone

def Answers (n : Nat) (c : Connection) : Prop :=
  c.sender ≠ .absent ∨ ∃ seat parts, c.feeder = .replying seat parts ∧
    n + parts.flatten.length + parts.length < 26

theorem answers_feed (h : Answers n l.present) (hub : Hub) (k : Nat) :
    Answers (n + 1) (l.act station (.feed hub (.upTo (k + 1)))).present := by
  rcases h with hs | ⟨seat, parts, hc, hn⟩
  · rw [act]
    split
    · exact .inl hs
    · next hub' c htake =>
      have hfeed : l.present.feed station hub (.upTo (k + 1)) = some (hub', c) := htake
      exact .inl ((feederStep_of_feed hfeed).sender_ne_absent hs)
  · obtain ⟨c', hfeed, hc'⟩ := feed_replying hc station hub k
    rw [act_feed hfeed]
    rcases hc' with hs | ⟨left, hleft, hlt⟩
    · exact .inl hs
    · exact .inr ⟨seat, left, hleft, by omega⟩

theorem Balance.reply (h : l.Balance station) :
    (l.present.sender = .absent → l.present.output <+: Reply.encode ⟨station.rate⟩) ∧
    (l.present.sender ≠ .absent → Reply.encode ⟨station.rate⟩ <+: l.present.output) := by
  obtain ⟨done, held, items, hp⟩ := h.parts
  exact ⟨fun hs => (h.flow.greeting hs).output_isPrefix,
    fun hs => (List.prefix_append _ _).trans (hp.taken hs)⟩

/-- The client is let in and answered. From its second action on the feeder has the seat that the
barrier gave it in this action, and the reply is sent before anything else. The bytes of the reply
are 21, so that 26 actions are enough if the client takes no more than one at a time. -/
structure LetsIn (station : Station) (turns : List Turn) (channels : List UInt32) (l : Life) :
    Prop where
  joined : l.joined? = (turns.filterMap Turn.fed?)[1]?.map fun hub =>
    ⟨hub.barrier.nextId, channels, hub.barrier.generation, 0⟩
  join : (turns.filterMap Turn.fed?).length = 1 → ∀ hub peer, ∃ c,
    l.present.feed station hub peer = some ({ hub with barrier := hub.barrier.join.2 }, c)
  unrefused : ∀ e, l.present.feeder ≠ .refusing e
  part : l.present.sender = .absent → l.present.output <+: Reply.encode ⟨station.rate⟩
  whole : l.present.sender ≠ .absent → Reply.encode ⟨station.rate⟩ <+: l.present.output
  begins : (∀ hub peer, Turn.feed hub peer ∈ turns → ∃ k, peer = .upTo (k + 1)) →
    26 ≤ (turns.filterMap Turn.fed?).length → l.present.sender ≠ .absent

theorem LetsIn.isSome_joined (h : l.LetsIn station turns channels) :
    l.joined?.isSome ↔ 2 ≤ (turns.filterMap Turn.fed?).length := by
  rw [h.joined, Option.isSome_map]
  simp [Nat.lt_iff_add_one_le]

section

variable (ht : station.settings.handshakeTimeout ≠ 0)
  (hr : consider station (Request.read station.requestLimit incoming).1 = .joining channels)
include ht hr

theorem enters_run (turns : List Turn) :
    (run station incoming turns).Enters incoming channels (turns.filterMap Turn.fed?) := by
  induction turns using List.reverseRecOn with
  | nil => exact .unread rfl rfl rfl
  | append_singleton turns t ih =>
    rw [run_concat, filterMap_concat]
    cases t with
    | feed hub peer => exact ih.feed ht hr hub peer
    | send hub peer =>
      rw [Turn.fed?, Option.toList_none, List.append_nil, act]
      split
      · exact ih
      · next hub' c htake => exact ih.send (senderStep_of_send htake)

theorem answers_run (turns : List Turn)
    (hp : ∀ hub peer, Turn.feed hub peer ∈ turns → ∃ k, peer = .upTo (k + 1))
    (hn : 2 ≤ (turns.filterMap Turn.fed?).length) :
    Answers (turns.filterMap Turn.fed?).length (run station incoming turns).present := by
  induction turns using List.reverseRecOn with
  | nil => exact absurd hn (by decide)
  | append_singleton turns t ih =>
    have hpast := fun hub peer ht => hp hub peer (List.mem_append_left _ ht)
    rw [run_concat]
    rw [filterMap_concat, List.length_append] at hn ⊢
    cases t with
    | send hub peer =>
      rw [act]
      split
      · exact ih hpast hn
      · next hub' c htake => exact .inl (senderStep_of_send htake).sender_ne_absent
    | feed hub peer =>
      obtain ⟨k, rfl⟩ := hp hub peer (List.mem_append_right _ List.mem_cons_self)
      by_cases hlong : 2 ≤ (turns.filterMap Turn.fed?).length
      · exact answers_feed (ih hpast hlong) hub k
      · have hone : (turns.filterMap Turn.fed?).length = 1 := by
          change 2 ≤ _ + 1 at hn
          omega
        have hjoining := (enters_run ht hr turns).joining hone
        rw [act_feed (feed_joining hjoining ..), hone]
        refine .inr ⟨_, _, rfl, ?_⟩
        have hlength := Reply.length_parts station.rate
        change 1 + 1 + _ + _ < 26
        omega

theorem letsIn_run (turns : List Turn) :
    (run station incoming turns).LetsIn station turns channels := by
  have henters := enters_run ht hr turns
  have hreply := (balance station incoming turns).reply
  constructor
  case joined => exact henters.joined?_eq
  case join =>
    intro hone hub peer
    exact ⟨_, feed_joining (henters.joining hone) station hub peer⟩
  case unrefused => exact henters.ne_refusing (membership station incoming turns)
  case part => exact hreply.1
  case whole => exact hreply.2
  case begins =>
    intro hp hlong
    rcases answers_run ht hr turns hp (by omega) with hs | ⟨seat, parts, -, hlt⟩
    · exact hs
    · omega

end

theorem run_gates (station : Station) (incoming : List Reading) (content : List UInt8)
    (turns : List Turn) :
    let l := run station incoming turns
    let actions := (turns.filterMap Turn.fed?).length
    station.settings.validate = .ok () → Carries incoming content →
    (l.joined?.isSome ↔ 2 ≤ actions ∧ ∃ channels more,
      content = Request.encode ⟨channels⟩ ++ more ∧ station.Admits channels) ∧
    (∀ channels more, content = Request.encode ⟨channels⟩ ++ more → station.Admits channels →
      l.LetsIn station turns channels ∧
      ∀ incoming' more', Carries incoming' (Request.encode ⟨channels⟩ ++ more') →
        let l' := run station incoming' turns
        l'.present = { l.present with incoming := l'.present.incoming } ∧
        ∀ t : Turn, (t.take station l'.present).map (·.1) = (t.take station l.present).map (·.1)) ∧
    ((∀ channels more, content = Request.encode ⟨channels⟩ ++ more → ¬ station.Admits channels) →
      ∃ w, l.Refuses (.request w) incoming actions ∧
        (∀ hub peer, (l.present.feed station hub peer).map (·.1) = refusalHub hub actions) ∧
        ∀ hub peer, l.present.send hub peer = none) := by
  intro l actions hv hcarries
  have ht := ServerSettings.handshakeTimeout_ne_zero hv
  have letIn : ∀ channels more, content = Request.encode ⟨channels⟩ ++ more →
      station.Admits channels → l.LetsIn station turns channels := by
    intro channels more hcontent ha
    refine letsIn_run ht ?_ turns
    rw [read_of_admits ha (hcontent ▸ hcarries), consider_of_admits ha]
  have refused : (∀ channels more, content = Request.encode ⟨channels⟩ ++ more →
      ¬ station.Admits channels) → ∃ w,
      consider station (Request.read station.requestLimit incoming).1 = .refusing (.request w) ∧
      l.Refuses (.request w) incoming actions := by
    intro hn
    obtain ⟨w, hw⟩ := refused_of_not_admits hcarries hn
    exact ⟨w, hw, refuses_run ht hw turns⟩
  refine ⟨⟨?_, ?_⟩, ?_, ?_⟩
  · intro hj
    by_cases hex : ∃ channels more, content = Request.encode ⟨channels⟩ ++ more ∧
        station.Admits channels
    · obtain ⟨channels, more, hcontent, ha⟩ := hex
      exact ⟨(letIn channels more hcontent ha).isSome_joined.mp hj, channels, more, hcontent, ha⟩
    · obtain ⟨w, -, hrefuses⟩ := refused fun channels more hcontent ha =>
        hex ⟨channels, more, hcontent, ha⟩
      rw [hrefuses.joined] at hj
      cases hj
  · rintro ⟨hlen, channels, more, hcontent, ha⟩
    exact (letIn channels more hcontent ha).isSome_joined.mpr hlen
  · intro channels more hcontent ha
    refine ⟨letIn channels more hcontent ha, fun incoming' more' hcarries' => ?_⟩
    intro l'
    have hread := (read_of_admits ha hcarries').trans
      (read_of_admits ha (hcontent ▸ hcarries)).symm
    exact (alike_run hread turns).same
  · intro hn
    obtain ⟨w, hw, hrefuses⟩ := refused hn
    refine ⟨w, hrefuses, hrefuses.feed ht hw, fun hub peer => ?_⟩
    simp only [send, hrefuses.sender]

def pairStation : Station := ⟨{ pointsPerChannel := 4, maxRequestedChannels := 2 }, 3, 1000⟩

def asked : List Reading :=
  [.chunk [0, 0, 0], .fault ⟨.interrupted, "signal"⟩, .chunk [2, 0, 0, 0, 2, 0, 0, 0, 0, 7]]

def broken : List Reading := [.chunk [0, 0, 0, 1, 0], .chunk [0, 0]]

def dripping : List Turn := List.replicate 26 (.feed {} (.upTo 1))

theorem run_gates_pair :
    (let l := run pairStation asked dripping
      let l' := run pairStation [.chunk (Request.encode ⟨[2, 0]⟩)] dripping
      l.joined? = some ⟨1, [2, 0], 0, 0⟩ ∧ Reply.encode ⟨1000⟩ <+: l.present.output ∧
        l'.present = { l.present with incoming := l'.present.incoming }) ∧
    ∃ w, (run pairStation broken dripping).Refuses (.request w) broken 26 := by
  have hvalid : pairStation.settings.validate = .ok () := by decide
  have hasked : Carries asked (Request.encode ⟨[2, 0]⟩ ++ [7]) :=
    ⟨by simp [asked, Reading.IsSteady, Fault.isRetried], by decide⟩
  have hplain : Carries [.chunk (Request.encode ⟨[2, 0]⟩)] (Request.encode ⟨[2, 0]⟩ ++ []) :=
    ⟨by decide, by simp [Reading.bytes]⟩
  have hbroken : Carries broken [0, 0, 0, 1, 0, 0, 0] :=
    ⟨by simp [broken, Reading.IsSteady], by decide⟩
  have hserves : ∀ c ∈ ([2, 0] : List UInt32), c < 3 := by simp
  have hadmits : pairStation.Admits [2, 0] := ⟨by decide, by decide, by decide, hserves⟩
  have hpeers : ∀ hub peer, Turn.feed hub peer ∈ dripping → ∃ k, peer = .upTo (k + 1) := by
    intro hub peer hmem
    cases List.eq_of_mem_replicate hmem
    exact ⟨0, rfl⟩
  have hnone : ∀ channels more, [0, 0, 0, 1, 0, 0, 0] = Request.encode ⟨channels⟩ ++ more →
      ¬ pairStation.Admits channels := by
    intro channels more he ha
    have hlen := congrArg List.length he
    have hsome := ha.nonempty
    simp only [Request.encode, List.length_append, BigEndian.length_encode, Request.length_ids,
      List.length_cons, List.length_nil] at hlen
    omega
  constructor
  · obtain ⟨-, hlet, -⟩ := run_gates pairStation asked _ dripping hvalid hasked
    obtain ⟨hin, hrest⟩ := hlet [2, 0] [7] rfl hadmits
    exact ⟨hin.joined, hin.whole (hin.begins hpeers (by decide)), (hrest _ [] hplain).1⟩
  · obtain ⟨-, -, hrefused⟩ := run_gates pairStation broken _ dripping hvalid hbroken
    obtain ⟨w, hw, -⟩ := hrefused hnone
    exact ⟨w, hw⟩

end Life
end Connection
end SampleCast
