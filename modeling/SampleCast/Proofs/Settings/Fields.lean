import SampleCast.Proofs.Settings.Record
import SampleCast.Settings.Daemon

/-! The fields of the settings.
The settings of the server, of the device and of the daemon are records of these fields, each with
its own default. -/

namespace SampleCast

section

variable {v : JsonValue}

namespace ServerSettings

def fields : List (Field ServerSettings) :=
  [⟨"bind_address", .address, .v4 0 0 0 0, bindAddress⟩,
    ⟨"port", .word16, 12345, port⟩,
    ⟨"backlog", .int32, 8, backlog⟩,
    ⟨"buffer_capacity", .word64, 256, bufferCapacity⟩,
    ⟨"points_per_channel", .word32, 1024, pointsPerChannel⟩,
    ⟨"acquisition_timeout_ms", .word64, 10000, acquisitionTimeout⟩,
    ⟨"wait_timeout_ms", .word64, 1500, waitTimeout⟩,
    ⟨"handshake_timeout_ms", .word64, 5000, handshakeTimeout⟩,
    ⟨"max_requested_channels", .word32, 1024, maxRequestedChannels⟩,
    ⟨"max_message_size", .word64, 16777216, maxMessageSize⟩,
    ⟨"nodelay", .flag, true, nodelay⟩]

theorem ofJson?_eq_some_iff {s : ServerSettings} : ofJson? v = some s ↔
    ∃ found, v.fields? (fields.map Field.name) = some found ∧
      List.Forall₂ (fun f found => f.Reads (f.get s) found) fields found := by
  have hnames : fields.map Field.name = fieldNames := rfl
  simp only [hnames, ofJson?, ofJsonOver, Option.bind_eq_bind, Option.bind_eq_some_iff]
  refine exists_congr fun found => and_congr_right fun _ => ?_
  constructor
  · intro h
    split at h
    next =>
      simp only [Option.bind_eq_some_iff, Option.some.injEq] at h
      obtain ⟨_, h₁, _, h₂, _, h₃, _, h₄, _, h₅, _, h₆, _, h₇, _, h₈, _, h₉, _, h₁₀, _, h₁₁,
        rfl⟩ := h
      exact .cons h₁ (.cons h₂ (.cons h₃ (.cons h₄ (.cons h₅ (.cons h₆ (.cons h₇ (.cons h₈
        (.cons h₉ (.cons h₁₀ (.cons h₁₁ .nil))))))))))
    next => cases h
  · intro h
    simp only [fields, List.forall₂_cons_left_iff, List.forall₂_nil_left_iff] at h
    obtain ⟨_, _, h₁, ⟨_, _, h₂, ⟨_, _, h₃, ⟨_, _, h₄, ⟨_, _, h₅, ⟨_, _, h₆, ⟨_, _, h₇,
      ⟨_, _, h₈, ⟨_, _, h₉, ⟨_, _, h₁₀, ⟨_, _, h₁₁, rfl, rfl⟩, rfl⟩, rfl⟩, rfl⟩, rfl⟩, rfl⟩, rfl⟩,
      rfl⟩, rfl⟩, rfl⟩, rfl⟩ := h
    simp only [Option.bind_eq_some_iff]
    exact ⟨_, h₁, _, h₂, _, h₃, _, h₄, _, h₅, _, h₆, _, h₇, _, h₈, _, h₉, _, h₁₀, _, h₁₁, rfl⟩

def record : Record ServerSettings where
  fields := fields
  default := {}
  read := ofJson?
  write := toJson
  nodup := by decide
  get_default := by
    simp only [fields, List.forall_mem_cons]
    exact ⟨rfl, rfl, rfl, rfl, rfl, rfl, rfl, rfl, rfl, rfl, trivial, List.forall_mem_nil _⟩
  ext := by
    intro s t h
    simp only [fields, List.forall_mem_cons] at h
    obtain ⟨h₁, h₂, h₃, h₄, h₅, h₆, h₇, h₈, h₉, h₁₀, h₁₁, -⟩ := h
    cases s
    cases t
    rw [mk.injEq]
    exact ⟨h₁, h₂, h₃, h₄, h₅, h₆, h₇, h₈, h₉, h₁₀, h₁₁⟩
  exists_of_fields := by
    intro P h
    simp only [fields, List.forall_mem_cons] at h ⊢
    obtain ⟨⟨a, ha⟩, ⟨b, hb⟩, ⟨c, hc⟩, ⟨d, hd⟩, ⟨e, he⟩, ⟨f, hf⟩, ⟨g, hg⟩, ⟨i, hi⟩, ⟨j, hj⟩,
      ⟨k, hk⟩, ⟨l, hl⟩, -⟩ := h
    exact ⟨⟨a, b, c, d, e, f, g, i, j, k, l⟩, ha, hb, hc, hd, he, hf, hg, hi, hj, hk, hl,
      List.forall_mem_nil _⟩
  read_eq_some_iff := ofJson?_eq_some_iff
  write_eq _ := rfl

end ServerSettings

namespace SourceSettings

def fields : List (Field SourceSettings) :=
  [⟨"channels", .word32, 3, channels⟩,
    ⟨"sampling_rate_hz", .word32, 30000, samplingRate⟩,
    ⟨"points_per_call", .word32, 10, pointsPerCall⟩,
    ⟨"pacing", .pacing, .none, pacing⟩]

theorem ofJson?_eq_some_iff {s : SourceSettings} : ofJson? v = some s ↔
    ∃ found, v.fields? (fields.map Field.name) = some found ∧
      List.Forall₂ (fun f found => f.Reads (f.get s) found) fields found := by
  have hnames : fields.map Field.name = fieldNames := rfl
  simp only [hnames, ofJson?, Option.bind_eq_bind, Option.bind_eq_some_iff]
  refine exists_congr fun found => and_congr_right fun _ => ?_
  constructor
  · intro h
    split at h
    next =>
      simp only [Option.bind_eq_some_iff, Option.some.injEq] at h
      obtain ⟨_, h₁, _, h₂, _, h₃, _, h₄, rfl⟩ := h
      exact .cons h₁ (.cons h₂ (.cons h₃ (.cons h₄ .nil)))
    next => cases h
  · intro h
    simp only [fields, List.forall₂_cons_left_iff, List.forall₂_nil_left_iff] at h
    obtain ⟨_, _, h₁, ⟨_, _, h₂, ⟨_, _, h₃, ⟨_, _, h₄, rfl, rfl⟩, rfl⟩, rfl⟩, rfl⟩ := h
    simp only [Option.bind_eq_some_iff]
    exact ⟨_, h₁, _, h₂, _, h₃, _, h₄, rfl⟩

def record : Record SourceSettings where
  fields := fields
  default := {}
  read := ofJson?
  write := toJson
  nodup := by decide
  get_default := by
    simp only [fields, List.forall_mem_cons]
    exact ⟨rfl, rfl, rfl, rfl, List.forall_mem_nil _⟩
  ext := by
    intro s t h
    simp only [fields, List.forall_mem_cons] at h
    obtain ⟨h₁, h₂, h₃, h₄, -⟩ := h
    cases s
    cases t
    rw [mk.injEq]
    exact ⟨h₁, h₂, h₃, h₄⟩
  exists_of_fields := by
    intro P h
    simp only [fields, List.forall_mem_cons] at h ⊢
    obtain ⟨⟨a, ha⟩, ⟨b, hb⟩, ⟨c, hc⟩, ⟨d, hd⟩, -⟩ := h
    exact ⟨⟨a, b, c, d⟩, ha, hb, hc, hd, List.forall_mem_nil _⟩
  read_eq_some_iff := ofJson?_eq_some_iff
  write_eq _ := rfl

end SourceSettings

namespace DaemonSettings

def fields : List (Field DaemonSettings) :=
  [⟨"server", ServerSettings.record.form, {}, server⟩,
    ⟨"source", SourceSettings.record.form, {}, source⟩,
    ⟨"metrics_interval_secs", .word64, 10, metricsInterval⟩]

theorem ofJson?_eq_some_iff {s : DaemonSettings} : ofJson? v = some s ↔
    ∃ found, v.fields? (fields.map Field.name) = some found ∧
      List.Forall₂ (fun f found => f.Reads (f.get s) found) fields found := by
  have hnames : fields.map Field.name = fieldNames := rfl
  simp only [hnames, ofJson?, Option.bind_eq_bind, Option.bind_eq_some_iff]
  refine exists_congr fun found => and_congr_right fun _ => ?_
  constructor
  · intro h
    split at h
    next =>
      simp only [Option.bind_eq_some_iff, Option.some.injEq] at h
      obtain ⟨_, h₁, _, h₂, _, h₃, rfl⟩ := h
      exact .cons h₁ (.cons h₂ (.cons h₃ .nil))
    next => cases h
  · intro h
    simp only [fields, List.forall₂_cons_left_iff, List.forall₂_nil_left_iff] at h
    obtain ⟨_, _, h₁, ⟨_, _, h₂, ⟨_, _, h₃, rfl, rfl⟩, rfl⟩, rfl⟩ := h
    simp only [Option.bind_eq_some_iff]
    exact ⟨_, h₁, _, h₂, _, h₃, rfl⟩

def record : Record DaemonSettings where
  fields := fields
  default := {}
  read := ofJson?
  write := toJson
  nodup := by decide
  get_default := by
    simp only [fields, List.forall_mem_cons]
    exact ⟨trivial, trivial, rfl, List.forall_mem_nil _⟩
  ext := by
    intro s t h
    simp only [fields, List.forall_mem_cons] at h
    obtain ⟨h₁, h₂, h₃, -⟩ := h
    cases s
    cases t
    rw [mk.injEq]
    exact ⟨h₁, h₂, h₃⟩
  exists_of_fields := by
    intro P h
    simp only [fields, List.forall_mem_cons] at h ⊢
    obtain ⟨⟨a, ha⟩, ⟨b, hb⟩, ⟨c, hc⟩, -⟩ := h
    exact ⟨⟨a, b, c⟩, ha, hb, hc, List.forall_mem_nil _⟩
  read_eq_some_iff := ofJson?_eq_some_iff
  write_eq _ := rfl

end DaemonSettings

end

end SampleCast
