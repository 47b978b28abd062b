import SampleCast.Proofs.Broadcast.Delivery
import SampleCast.Proofs.Broadcast.Lives
import SampleCast.Proofs.Connection.Balance

/-! Conservation of frames.
No frame is lost between the queue of a connection, its client and the drain, and none is counted
twice. Main statement: `run_conserves`, on the reports of all connections in all courses, and on
those of all lives, in which the hub may be found in any state and may refuse an acknowledgment. -/

namespace SampleCast

variable {σ : Type} {source : SampleSource σ} {station : Station} {s : σ}

theorem Message.length_encode {f : Frame} (h : f.WellShaped) :
    (Message.encode f).length = 25 + Payload.size f := by
  have hmarker : Marker.data.bytes.length = 21 := by decide
  rw [Message.encode, Message.lengthBytes, List.length_append, List.length_append, hmarker,
    BigEndian.length_encode, Payload.length_encode h]

theorem Connection.volume_of_wellShaped {frames : List Frame} (h : ∀ f ∈ frames, f.WellShaped) :
    volume frames = (frames.map fun f => 25 + Payload.size f).sum :=
  congrArg List.sum (List.map_congr_left fun f hf => Message.length_encode (h f hf))

namespace Course

theorem wellShaped_of_mem_frames {r : Course σ} (h : r.Publication station) {i : Nat}
    (hs : r.Serves station i) {f : Frame} (hf : f ∈ r.frames i) : f.WellShaped := by
  obtain ⟨⟨g, f⟩, hmem, rfl⟩ := List.mem_map.mp hf
  cases hc : r.present.connections[i]? with
  | none =>
    rw [(hs.absent hc).2] at hmem
    cases hmem
  | some c =>
    have hl := hs.ledger c hc
    cases hj : r.joined? i with
    | none =>
      rw [hl.blank hj] at hmem
      cases hmem
    | some seat =>
      have hq := hl.since seat hj
      exact (wellShaped_of_isSelection h hq.narrow (hq.selected g f hmem)).1

open Connection in
theorem run_conserves (source : SampleSource σ) (station : Station) (s : σ) :
    (∀ schedule i c report,
      let r := run source station s schedule
      let frames := r.frames i
      r.present.connections[i]? = some c → c.feeder.report? = some report →
      Accounts (Reply.encode ⟨station.rate⟩) frames (r.failures i) c.output report ∧
        report.sender.bytes =
          ((frames.take report.sender.frames).map fun f => 25 + Payload.size f).sum) ∧
    ∀ incoming turns report,
      let l := Life.run station incoming turns
      l.present.feeder.report? = some report →
      Accounts (Reply.encode ⟨station.rate⟩) l.frames l.failures l.present.output report ∧
        ((∀ f ∈ l.frames, f.WellShaped) → report.sender.bytes =
          ((l.frames.take report.sender.frames).map fun f => 25 + Payload.size f).sum) := by
  have life : ∀ incoming turns report, let l := Life.run station incoming turns
      l.present.feeder.report? = some report →
      Accounts (Reply.encode ⟨station.rate⟩) l.frames l.failures l.present.output report ∧
        ((∀ f ∈ l.frames, f.WellShaped) → report.sender.bytes =
          ((l.frames.take report.sender.frames).map fun f => 25 + Payload.size f).sum) := by
    intro incoming turns report l hr
    have haccounts := (Life.balance station incoming turns).accounts hr
    refine ⟨haccounts, ?_⟩
    intro hshaped
    rw [haccounts.bytes]
    exact volume_of_wellShaped fun f hf => hshaped f (List.mem_of_mem_take hf)
  refine ⟨?_, life⟩
  intro schedule i c report r frames hc hr
  obtain ⟨incoming, turns, hpresent, -, -, -, hqueued, hfailures⟩ :=
    exists_life source station s schedule hc
  obtain ⟨hpub, hserves⟩ : r.Publication station ∧ ∀ i, r.Serves station i := serves schedule
  have hframes : (Life.run station incoming turns).frames = frames :=
    congrArg (List.map fun q : Nat × Frame => q.2) hqueued
  have h := life incoming turns report (by rw [hpresent, hr])
  rw [hframes, hfailures, hpresent] at h
  exact ⟨h.1, h.2 fun f hf => wellShaped_of_mem_frames hpub (hserves i) hf⟩

open Broadcast.Action in
def shortWrite : List Broadcast.Action :=
  Broadcast.firstBlock ++ List.replicate 4 (feed 0 (.upTo 1)) ++
    List.replicate 3 (send 0 (.upTo 50)) ++ List.replicate 4 produce ++
    List.replicate 5 (feed 0 (.upTo 1)) ++ List.replicate 4 produce ++
    List.replicate 4 (feed 0 (.upTo 1)) ++ List.replicate 4 (send 0 (.upTo 0)) ++
    List.replicate 7 (feed 0 (.upTo 1))

def strangers : Hub where
  barrier := { generation := 1 }
  slot := ⟨1, .ofBuffers 0 2 1 [7, 8] [true, false]⟩

def estranged : List Connection.Turn :=
  List.replicate 8 (.feed {} (.upTo 17)) ++ List.replicate 9 (.feed strangers (.upTo 1)) ++
    List.replicate 4 (.send strangers (.upTo 50)) ++ List.replicate 2 (.feed strangers (.upTo 1))

theorem run_conserves_shortWrite :
    let r := run Broadcast.pulse Broadcast.pulseStation () shortWrite
    let l := Connection.Life.run Broadcast.pulseStation [.chunk [0, 0, 0, 1, 0, 0, 0, 1]] estranged
    (∃ c report, r.present.connections[0]? = some c ∧ c.feeder.report? = some report ∧
      report.sender = ⟨1, 50⟩ ∧ report.discarded = 1 ∧ (r.frames 0).length = 1 + 1 + 1 ∧
      50 = (((r.frames 0).take 1).map fun f => 25 + Payload.size f).sum) ∧
    ∃ report, l.present.feeder.report? = some report ∧
      report.reason = .violated (.notActive 1 1) ∧ report.acknowledged = 0 ∧
      l.frames.length = 0 + 1 := by
  have hcourse : ((run Broadcast.pulse Broadcast.pulseStation ()
      shortWrite).present.connections[0]?.bind (·.feeder.report?)).any fun report =>
        report.sender = ⟨1, 50⟩ ∧ report.discarded = 1 := by decide +kernel
  have hfail : ((run Broadcast.pulse Broadcast.pulseStation ()
      shortWrite).failures 0).length = 1 := by decide +kernel
  have hlife : (Connection.Life.run Broadcast.pulseStation [.chunk [0, 0, 0, 1, 0, 0, 0, 1]]
      estranged).present.feeder.report?.any fun report =>
        report.reason = .violated (.notActive 1 1) ∧ report.acknowledged = 0 := by decide +kernel
  obtain ⟨report, hr, hreport⟩ := (Option.any_eq_true _ _).mp hcourse
  obtain ⟨c, hc, hr⟩ := Option.bind_eq_some_iff.mp hr
  obtain ⟨report', hr', hreport'⟩ := (Option.any_eq_true _ _).mp hlife
  obtain ⟨hsender, hdiscarded⟩ := of_decide_eq_true hreport
  obtain ⟨hreason, hacknowledged⟩ := of_decide_eq_true hreport'
  obtain ⟨courses, lives⟩ := run_conserves Broadcast.pulse Broadcast.pulseStation ()
  obtain ⟨haccounts, hbytes⟩ := courses shortWrite 0 c report hc hr
  obtain ⟨haccounts', -⟩ := lives _ estranged report' hr'
  have hqueued := haccounts.queued
  have hacknowledged' := haccounts'.acknowledged
  rw [hsender, hdiscarded, hfail] at hqueued
  rw [hsender] at hbytes
  rw [hacknowledged, hreason] at hacknowledged'
  exact ⟨⟨c, report, hc, hr, hsender, hdiscarded, hqueued, hbytes⟩, report', hr', hreason,
    hacknowledged, hacknowledged'⟩

end Course
end SampleCast
