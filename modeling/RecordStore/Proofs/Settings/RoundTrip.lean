import RecordStore.Proofs.Toml.Document
import RecordStore.Settings.Document
/-!
# Settings — what is written is read back

Settings are written as lines with names of their own, and a connection's
settings for objects as a table behind them. Whatever characters their texts
hold, the document is read as the table of these lines, and the table as the
settings (`settings_round_trip`).
-/

namespace RecordStore

open Toml

namespace EngineSettings

variable {s : EngineSettings}

/-- The lines of the settings stand for them. -/
theorem ofEntries?_toLines (s : EngineSettings) : ofEntries? (entriesOf s.toLines) = some s := rfl

/-- **Settings cannot be written** where an integer of them is too large. -/
theorem toToml_error_iff :
    (∃ err, s.toToml = .error err) ↔ maxInteger < s.defaultRegionSize ∨
      maxInteger < s.minRegionSize ∨ maxInteger < s.maxFieldCount := by
  have hnone : writtenPairs? s.toLines = none ↔ maxInteger < s.defaultRegionSize ∨
      maxInteger < s.minRegionSize ∨ maxInteger < s.maxFieldCount := by
    rw [writtenPairs?_eq_none_iff]
    simp [toLines]
  rw [← hnone, toToml]
  cases writtenPairs? s.toLines <;> simp

/-- **Settings that were written** are read back and validated. -/
theorem ofToml_toToml {text : String} (h : s.toToml = .ok text) :
    ofToml text = s.validate.map fun _ => s := by
  unfold toToml at h
  cases hw : writtenPairs? s.toLines with
  | none =>
    rw [hw] at h
    cases h
  | some written =>
    rw [hw] at h
    cases h
    have hbare : ∀ p ∈ s.toLines, isBareName p.1 = true := by
      simp only [toLines, List.forall_mem_cons]
      exact ⟨by decide, by decide, by decide, by decide, by nofun⟩
    have hnodup : (s.toLines.map Prod.fst).Nodup := by
      simp only [toLines, List.map_cons, List.map_nil]
      decide
    have hparse := parse?_writtenPairs (by simp [toLines]) hbare hnodup hw
    rw [ofToml, hparse, Option.bind_some, ofEntries?_toLines]

end EngineSettings

namespace ConnectionSettings

variable {s : ConnectionSettings}

/-- The lines of the settings with the table behind them stand for them. -/
theorem ofEntries?_toLines (s : ConnectionSettings) :
    ofEntries? (entriesOf s.toLines ++ [("mapper", .table .header (entriesOf s.mapper.toLines))]) =
      some s := by
  obtain ⟨name, size, isLocal, mapper⟩ := s
  -- A name that is none has no line.
  cases name with
  | none => rfl
  | some name => rfl

/-- **Settings cannot be written** where the size is too large. -/
theorem toToml_error_iff : (∃ err, s.toToml = .error err) ↔ maxInteger < s.size := by
  have hown : writtenPairs? s.toLines = none ↔ maxInteger < s.size := by
    rw [writtenPairs?_eq_none_iff]
    cases hname : s.name <;> simp [toLines, hname]
  obtain ⟨mapper, hmapper⟩ : ∃ mapper, writtenPairs? s.mapper.toLines = some mapper := ⟨_, rfl⟩
  rw [← hown, toToml, hmapper]
  cases writtenPairs? s.toLines <;> simp

/-- The names of the lines are different ones, and none of them is the name of the table. -/
theorem names_toLines (s : ConnectionSettings) :
    (s.toLines.map Prod.fst ++ ["mapper"]).Nodup ∧
      ∀ p ∈ s.toLines, isBareName p.1 = true := by
  obtain ⟨name, size, isLocal, mapper⟩ := s
  cases name with
  | none => exact ⟨by simp [toLines], by simp [toLines]; decide⟩
  | some name => exact ⟨by simp [toLines], by simp [toLines]; decide⟩

/-- **Settings that were written** are read back and validated. -/
theorem ofToml_toToml {text : String} (h : s.toToml = .ok text) :
    ofToml text = s.validate.map fun _ => s := by
  unfold toToml at h
  split at h
  · rename_i own mapper hown hmapper
    cases h
    obtain ⟨hnodup, hbare⟩ := names_toLines s
    have hne : s.toLines ≠ [] := by simp [toLines]
    have hinner : ∀ p ∈ s.mapper.toLines, isBareName p.1 = true := by
      simp only [MapperSettings.toLines, List.forall_mem_cons]
      exact ⟨by decide, by nofun⟩
    have hparse := parse?_writtenTable hne hbare hinner (show isBareName "mapper" = true by decide)
      hnodup (by simp [MapperSettings.toLines]) hown hmapper
    rw [ofToml, hparse, Option.bind_some, ofEntries?_toLines]
  · cases h

end ConnectionSettings

/-! ## The round trip -/

/-- **Settings survive the way through a document.** Writing them fails exactly where an integer
of them does not fit into 64 bits with a sign. What was written reads back as the settings where
they are valid, and as the fault that is found in them where they are not. -/
theorem settings_round_trip (engine : EngineSettings) (connection : ConnectionSettings) :
    (((∃ err, engine.toToml = .error err) ↔ maxInteger < engine.defaultRegionSize ∨
        maxInteger < engine.minRegionSize ∨ maxInteger < engine.maxFieldCount) ∧
      ∀ text, engine.toToml = .ok text →
        (engine.validate = .ok () → EngineSettings.ofToml text = .ok engine) ∧
        ∀ err, engine.validate = .error err → EngineSettings.ofToml text = .error err) ∧
    ((∃ err, connection.toToml = .error err) ↔ maxInteger < connection.size) ∧
      ∀ text, connection.toToml = .ok text →
        (connection.validate = .ok () → ConnectionSettings.ofToml text = .ok connection) ∧
        ∀ err, connection.validate = .error err → ConnectionSettings.ofToml text = .error err := by
  refine ⟨⟨EngineSettings.toToml_error_iff, ?_⟩, ConnectionSettings.toToml_error_iff, ?_⟩
  · intro text htext
    rw [EngineSettings.ofToml_toToml htext]
    exact ⟨fun hvalid => by rw [hvalid]; rfl, fun err hfault => by rw [hfault]; rfl⟩
  · intro text htext
    rw [ConnectionSettings.ofToml_toToml htext]
    exact ⟨fun hvalid => by rw [hvalid]; rfl, fun err hfault => by rw [hfault]; rfl⟩

/-- A region name of quotes and control characters survives. A name with a zero character is
written too, but refused when it is read. -/
theorem settings_round_trip_quoted :
    (∃ text, EngineSettings.toToml { defaultRegionName := "\"\"\"\"'''\\\t\r\n\x00" } = .ok text ∧
      EngineSettings.ofToml text = .ok { defaultRegionName := "\"\"\"\"'''\\\t\r\n\x00" }) ∧
    ∃ text, ConnectionSettings.toToml { name := some "'\x00\"" } = .ok text ∧
      ConnectionSettings.ofToml text = .error (.invalidConfig .nulInName) := by
  obtain ⟨⟨hfails, hreads⟩, hfails', hreads'⟩ :=
    settings_round_trip { defaultRegionName := "\"\"\"\"'''\\\t\r\n\x00" }
      { name := some "'\x00\"" }
  constructor
  · cases htext : EngineSettings.toToml { defaultRegionName := "\"\"\"\"'''\\\t\r\n\x00" } with
    | error err => exact absurd (hfails.1 ⟨err, htext⟩) (by decide)
    | ok text => exact ⟨text, rfl, (hreads text htext).1 (by decide)⟩
  · cases htext : ConnectionSettings.toToml { name := some "'\x00\"" } with
    | error err => exact absurd (hfails'.1 ⟨err, htext⟩) (by decide)
    | ok text => exact ⟨text, rfl, (hreads' text htext).2 _ (by decide)⟩

end RecordStore
