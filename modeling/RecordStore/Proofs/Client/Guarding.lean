import RecordStore.Proofs.Checksum
import RecordStore.Proofs.Client.Reading
import RecordStore.Proofs.Schema.Fingerprint
/-!
# Guarding — objects that are read through another schema

With the fingerprint on, a record ends with the fingerprint of the schema that
it was written through, and a read through a schema with another fingerprint
is refused before any attribute is read (`outcome_readWith_mismatch`). The
checksum finds every change of its input that stays in a window of four bytes,
so that an attribute that was renamed in a few characters is always noticed
(`renames_are_detected`).
-/

namespace RecordStore

namespace Connection

variable {α β : Type} {conn : Connection} {c : Client} {rec : RecordHandle} {stored : Record}
variable {s : Schema α} {s' : Schema β}

/-- **A guarded read is refused** if the record ends with another fingerprint. -/
theorem outcome_readWith_mismatch {v : Int32} (h : c.engine.recordAt conn.handle rec = .ok stored)
    (hsize : stored.fields.size = s.recordLength true)
    (hfield : stored.fields[s.size]? = some (some (.int v))) (hother : v ≠ s.fingerprint) :
    (conn.readWith s true rec).outcome c =
      (.error (s.mismatch (.fingerprint v s.fingerprint)), c) := by
  have hchecked : (conn.checkFingerprint s rec).outcome c =
      (.error (s.mismatch (.fingerprint v s.fingerprint)), c) := by
    rw [outcome_checkFingerprint h hfield]
    simp only [typed, FieldValue.asInt?, if_neg hother]
  rw [readWith, Action.outcome_bind, outcome_length_recordAt, h]
  simp only [Except.map, Except.mapError, hsize, ne_eq, not_true_eq_false, if_false, if_true]
  rw [Action.outcome_bind, hchecked]

/-- **Small renames are always detected.** Take two schemas with as many attributes, and let the
inputs of their checksums be equally long and differ, but only in a window of four bytes. Then
their fingerprints differ. A record that is written through the one with the fingerprint on is
refused with a mapping mismatch that names both fingerprints wherever it is read, unmodified,
through the other one with the fingerprint on: at any later time, through any connection and
handle that lead to it. The read changes nothing. -/
theorem renames_are_detected (settings : EngineSettings) (calls : List Call)
    (hengine : c.engine = (Engine.start settings).run calls) (s : Schema α) (s' : Schema β)
    (start : Nat) (hsize : s'.size = s.size)
    (hlength : (Schema.fingerprintBytes s.names).length = (Schema.fingerprintBytes s'.names).length)
    (hne : Schema.fingerprintBytes s.names ≠ Schema.fingerprintBytes s'.names)
    (hwindow : ∀ i, (Schema.fingerprintBytes s.names)[i]? ≠ (Schema.fingerprintBytes s'.names)[i]? →
      start ≤ i ∧ i < start + 4) :
    s.fingerprint ≠ s'.fingerprint ∧
      ∀ (conn : Connection) (object : α) record written,
        (conn.writeWith s true object).outcome c = (.ok (.done record), written) →
        ∃ stored, written.engine.recordAt conn.handle record = .ok stored ∧
          ∀ (later : Client) (reader : Connection) rec,
            later.engine.recordAt reader.handle rec = .ok stored →
            (reader.readWith s' true rec).outcome later =
              (.error (.engine (.mappingMismatch s'.typeName
                (.fingerprint s.fingerprint s'.fingerprint))), later) := by
  have hother : s.fingerprint ≠ s'.fingerprint := fun hsame =>
    Checksum.ofBytes_ne_of_window hlength hne hwindow (Schema.fingerprint_eq_iff.1 hsame)
  refine ⟨hother, fun conn object record written hwriting => ?_⟩
  have hcoherent : ∀ (place : Nat) r, c.engine.regions[place]? = some r → r.Coherent :=
    fun place r hr => Engine.coherent_run (hengine ▸ hr)
  obtain ⟨stored, hstored, hfields⟩ := recordAt_of_writeWith hcoherent hwriting
  refine ⟨stored, hstored, fun later reader rec hrec => ?_⟩
  -- The record has the length that the reader expects, but ends with the writer's fingerprint.
  have hrecord : stored.fields.size = s'.recordLength true := by
    rw [hfields]
    simp [Record.ints, Schema.length_encode, Schema.recordLength, hsize]
  have hguard : stored.fields[s'.size]? = some (some (.int s.fingerprint)) := by
    rw [hfields, hsize]
    exact Record.getElem?_ints Schema.getElem?_encode_size
  exact outcome_readWith_mismatch hrec hrecord hguard hother

/-- An age and a weight that were written are not read as an age and a height. -/
theorem renames_are_detected_height :
    let s := TupleType.sortedSchema ⟨"Sample", ["age", "weight"], true⟩
    let s' := TupleType.sortedSchema ⟨"Renamed", ["age", "height"], true⟩
    let conn : Connection := ⟨⟨⟨1⟩, ⟨1⟩, true⟩, {}⟩
    let c : Client := { engine := (Engine.start {}).run [.openDatabase none 0 true] }
    s.fingerprint ≠ s'.fingerprint ∧ ∃ record written,
      (conn.writeWith s true #[41, 80]).outcome c = (.ok (.done record), written) ∧
      (conn.readWith s' true record).outcome written =
        (.error (.engine (.mappingMismatch "Renamed" (.fingerprint s.fingerprint s'.fingerprint))),
          written) := by
  intro s s' conn c
  have hnames : s.names = ["age"] ++ "weight" :: [] :=
    TupleType.names_sortedSchema_of_pairwise (by decide)
  have hnames' : s'.names = ["age"] ++ "height" :: [] :=
    TupleType.names_sortedSchema_of_pairwise (by decide)
  have hsize : s.size = 2 := TupleType.size_sortedSchema _
  have hsize' : s'.size = 2 := TupleType.size_sortedSchema _
  -- Only the first character of the name is another one.
  have hinside : ∀ i, (Schema.nameBytes "weight")[i]? ≠ (Schema.nameBytes "height")[i]? →
      0 ≤ i ∧ i < 0 + 4
    | 0, _ => by decide
    | _ + 1, hi => absurd rfl hi
  have hsame : (Schema.nameBytes "weight").length = (Schema.nameBytes "height").length := rfl
  have hrenamed : "weight" ≠ "height" := by decide
  obtain ⟨hlength, hne, hwindow⟩ :=
    Schema.fingerprintBytes_renamed ["age"] [] hsame hrenamed hinside
  rw [← hnames, ← hnames'] at hlength hne hwindow
  obtain ⟨hother, hreads⟩ := renames_are_detected (c := c) {} _ rfl s s' _
    (hsize'.trans hsize.symm) hlength hne hwindow
  have hcoherent : ∀ (place : Nat) r, c.engine.regions[place]? = some r → r.Coherent :=
    fun place r hr => Engine.coherent_run hr
  have hlong : s.recordLength true = 3 := congrArg Nat.succ hsize
  have hcreate : (conn.create (s.recordLength true)).outcome c =
      (.ok (.done (conn.handle.record ⟨0, 0⟩)), ((conn.create 3).outcome c).2) := by
    rw [hlong]
    rfl
  obtain ⟨written, -, -, -, hwriting, -⟩ :=
    outcome_writeWith_pass #[41, 80] hcoherent hcreate fun _ _ => rfl
  obtain ⟨stored, hstored, hread⟩ := hreads conn #[41, 80] _ written hwriting
  exact ⟨hother, _, written, hwriting, hread written conn _ hstored⟩

end Connection

end RecordStore
