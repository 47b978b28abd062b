import SampleCast.Proofs.Settings.Fields

/-! Settings in files.
Main statements: `settings_read_back`, that all settings are read back from their text, and
`partial_settings_read`, how an object of some of the fields is read. -/

namespace SampleCast

namespace SettingsFile

def ofText (text : String) : SettingsFile := .bytes text.toUTF8.data.toList

theorem content_ofText (text : String) : (ofText text).content = .ok text := by
  have hread : String.fromUTF8? ⟨text.toUTF8.data.toList.toArray⟩ = some text :=
    dif_pos text.isValidUTF8
  rw [ofText, content.eq_def]
  simp only [hread]

theorem load_ofText {α : Type} {parse? : String → Option α} (text : String) :
    load parse? (ofText text) =
      match parse? text with
      | some s => .ok s
      | none => .error .parse := by
  rw [load, content_ofText]
  rfl

end SettingsFile

namespace Record

variable {S : Type} {r : Record S} {s : S} {members : List (String × JsonValue)}

theorem read_pretty (s : S) : (JsonValue.parse? (r.write s).pretty).bind r.read = some s := by
  have hprintable : (r.write s).Printable := r.form.printable_write s
  rw [JsonValue.parse?_pretty hprintable, Option.bind_some]
  exact read_iff.mpr (describes_write s)

theorem describes_ofFields :
    r.Describes (.ofFields members) s ↔
      ∀ f ∈ r.fields, f.Takes (f.get s) (given f.name members) := by
  simp only [JsonValue.ofFields, Describes, given_map_toList, List.forall_mem_map]
  exact and_iff_right fun _ _ => rfl

/-- How objects are read as records. An object with some of the fields is the default with these
fields replaced, in whatever order they stand, whatever else the object has and however it is
spelled. An object that has a field twice, or a value that stands for none of the field, is
refused. -/
structure ReadsObjects (r : Record S) (parse? : String → Option S) : Prop where
  accepts : ∀ {members : List (String × JsonValue)} {text : List Char},
    JsonToken.Spells (JsonValue.ofFields members).tokens text →
    (∀ f ∈ r.fields, (given f.name members).length ≤ 1) →
    (∀ f ∈ r.fields, ∀ v ∈ given f.name members, ∃ x, f.form.Denotes v x) →
    ∃ s, parse? (String.ofList text) = some s ∧
      SettingsFile.load parse? (.ofText (String.ofList text)) = .ok s ∧
      ∀ f ∈ r.fields, (given f.name members = [] → f.get s = f.get r.default) ∧
        ∀ v ∈ given f.name members, f.form.Denotes v (f.get s)
  refuses : ∀ {members : List (String × JsonValue)} {text : List Char},
    JsonToken.Spells (JsonValue.ofFields members).tokens text →
    (∃ f ∈ r.fields, 1 < (given f.name members).length ∨
      ∃ v ∈ given f.name members, ∀ x, ¬ f.form.Denotes v x) →
    parse? (String.ofList text) = none ∧
      SettingsFile.load parse? (.ofText (String.ofList text)) = .error .parse

theorem read_ofFields (honce : ∀ f ∈ r.fields, (given f.name members).length ≤ 1)
    (hvalue : ∀ f ∈ r.fields, ∀ v ∈ given f.name members, ∃ x, f.form.Denotes v x) :
    ∃ s, r.read (.ofFields members) = some s ∧
      ∀ f ∈ r.fields, (given f.name members = [] → f.get s = f.get r.default) ∧
        ∀ v ∈ given f.name members, f.form.Denotes v (f.get s) := by
  obtain ⟨s, htakes⟩ := r.exists_of_fields (P := fun f x => f.Takes x (given f.name members))
    fun f hf => Field.exists_takes (honce f hf) (hvalue f hf)
  refine ⟨s, read_iff.mpr (describes_ofFields.mpr htakes), fun f hf => ?_⟩
  rw [r.get_default f hf]
  exact (Field.takes_iff.mp (htakes f hf)).2

theorem read_ofFields_eq_none (hflaw : ∃ f ∈ r.fields, 1 < (given f.name members).length ∨
    ∃ v ∈ given f.name members, ∀ x, ¬ f.form.Denotes v x) :
    r.read (.ofFields members) = none := by
  rw [Option.eq_none_iff_forall_ne_some]
  intro s hs
  have htakes := describes_ofFields.mp (read_iff.mp hs)
  obtain ⟨f, hf, hflaw⟩ := hflaw
  obtain ⟨honce, -, hdenotes⟩ := Field.takes_iff.mp (htakes f hf)
  rcases hflaw with htwice | ⟨v, hv, hnone⟩
  · exact absurd honce (Nat.not_le.mpr htwice)
  · exact hnone _ (hdenotes v hv)

theorem readsObjects (r : Record S) :
    r.ReadsObjects fun text => (JsonValue.parse? text).bind r.read where
  accepts := by
    intro members text hspells honce hvalue
    obtain ⟨s, hread, hs⟩ := read_ofFields honce hvalue
    have hparse : (JsonValue.parse? (String.ofList text)).bind r.read = some s := by
      rw [JsonValue.parse?_of_spells hspells, Option.bind_some, hread]
    refine ⟨s, hparse, ?_, hs⟩
    rw [SettingsFile.load_ofText, hparse]
  refuses := by
    intro members text hspells hflaw
    have hparse : (JsonValue.parse? (String.ofList text)).bind r.read = none := by
      rw [JsonValue.parse?_of_spells hspells, Option.bind_some, read_ofFields_eq_none hflaw]
    refine ⟨hparse, ?_⟩
    rw [SettingsFile.load_ofText, hparse]

end Record

theorem settings_read_back :
    (∀ s : DaemonSettings, DaemonSettings.parse? s.text = some s) ∧
      (∀ s : ServerSettings, SettingsFile.load ServerSettings.parse? (.ofText s.text) = .ok s) ∧
      ∀ s : SourceSettings, SourceSettings.parse? s.text = some s := by
  refine ⟨DaemonSettings.record.read_pretty, fun s => ?_, SourceSettings.record.read_pretty⟩
  have hparse : ServerSettings.parse? s.text = some s := ServerSettings.record.read_pretty s
  rw [SettingsFile.load_ofText, hparse]

theorem partial_settings_read :
    ServerSettings.record.ReadsObjects ServerSettings.parse? ∧
      SourceSettings.record.ReadsObjects SourceSettings.parse? ∧
      DaemonSettings.record.ReadsObjects DaemonSettings.parse? :=
  ⟨ServerSettings.record.readsObjects, SourceSettings.record.readsObjects,
    DaemonSettings.record.readsObjects⟩

theorem partial_settings_read_port :
    (∃ s, ServerSettings.parse? (JsonValue.ofFields
        [("other", .array [.null]), ("port", .ofNat 7)]).pretty = some s ∧
      s.port = 7 ∧ s.nodelay = true) ∧
    ServerSettings.parse? (JsonValue.ofFields
        [("port", .ofNat 7), ("port", .ofNat 7)]).pretty = none := by
  have hspells := (JsonValue.spelledAs_print (.ofFields [("other", .array [.null]),
    ("port", .ofNat 7)]) 0 ⟨rfl, ⟨trivial, trivial⟩, rfl, nofun, trivial⟩).spells
  have htwice := (JsonValue.spelledAs_print (.ofFields [("port", .ofNat 7), ("port", .ofNat 7)]) 0
    ⟨rfl, nofun, rfl, nofun, trivial⟩).spells
  obtain ⟨s, hparse, -, hs⟩ := partial_settings_read.1.accepts hspells (by decide) (by
    simp only [ServerSettings.record, ServerSettings.fields, List.forall_mem_cons]
    have habsent : ∀ {p : JsonValue → Prop}, ∀ v ∈ [], p v := List.forall_mem_nil _
    exact ⟨habsent, fun v hv => ⟨7, List.mem_singleton.mp hv⟩, habsent, habsent, habsent, habsent,
      habsent, habsent, habsent, habsent, habsent, List.forall_mem_nil _⟩)
  simp only [ServerSettings.record, ServerSettings.fields, List.forall_mem_cons] at hs
  obtain ⟨-, hport, -, -, -, -, -, -, -, -, hnodelay, -⟩ := hs
  have hread : some 7 = some s.port :=
    JsonForm.word16.read_eq_some_iff.mpr (hport.2 _ (List.mem_cons_self ..))
  refine ⟨⟨s, hparse, (Option.some.inj hread).symm, hnodelay.1 rfl⟩, ?_⟩
  exact (partial_settings_read.1.refuses htwice
    ⟨_, List.mem_cons_of_mem _ (List.mem_cons_self ..), .inl (by decide)⟩).1

end SampleCast
