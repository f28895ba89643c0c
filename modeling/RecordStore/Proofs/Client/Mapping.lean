import Mathlib.Data.Nat.Find
import RecordStore.Proofs.Client.Writing
/-!
# Mapping — objects that are written and read back

An object comes to integers in the order of its names, and the fields of its
record are these integers (`outcome_writeWith_encoded`). Reading assigns them
back, name by name (`outcome_readWith`). Two types with the same names have
one layout, whichever order they declare the names in, so that what is written
through the one is read through the other (`objects_round_trip`).
-/

namespace RecordStore

/-- **The fields of a record with a layout**: one for each name, at the rank of the name, and
the fingerprint behind them. -/
theorem TupleType.fields_of_layout {t : TupleType} {withFingerprint : Bool}
    {value : String → Int32} {fields : Array Field} (hnodup : t.names.Nodup)
    (h : fields = Record.ints (t.sortedSchema.layout withFingerprint value)) :
    fields.size = t.names.length + withFingerprint.toNat ∧
      (∀ name ∈ t.names,
        fields[Schema.rank t.names name]? = some (some (.int (value name)))) ∧
      (withFingerprint = true →
        fields[t.names.length]? = some (some (.int t.sortedSchema.fingerprint))) := by
  subst h
  refine ⟨?_, fun name hname => ?_, fun hwith => ?_⟩
  · have hlength : (t.sortedSchema.layout withFingerprint value).length = _ := Schema.length_layout
    rw [t.recordLength_sortedSchema] at hlength
    simpa [Record.ints] using hlength
  · have hrank := Schema.getElem?_rank hnodup hname
    rw [← t.names_sortedSchema] at hrank
    exact Record.getElem?_ints (Schema.getElem?_layout hrank)
  · subst hwith
    rw [← t.size_sortedSchema]
    exact Record.getElem?_ints Schema.getElem?_layout_size

/-! ## Through a connection -/

namespace Connection

variable {α : Type} {conn : Connection} {c c' : Client} {place : Nat} {r : Region} {key : SlotKey}
variable {rec : Record} {s : Schema α} {withFingerprint : Bool} {object : α}
variable {value : String → Int32}

/-- **An object that is written** fills a new record with its integers, unless the plan lets
one of the writes fail. -/
theorem outcome_writeWith_encoded {record : RecordHandle} {created : Client} (object : α)
    (hcoherent : ∀ (place : Nat) r, c.engine.regions[place]? = some r → r.Coherent)
    (h : (conn.create (s.recordLength withFingerprint)).outcome c = (.ok (.done record), created)) :
    (∃ n, c.faults.failsWrite n = true ∧ ∃ err c',
      (conn.writeWith s withFingerprint object).outcome c = (.error err, c')) ∨
    ∃ c' place r stored,
      (conn.writeWith s withFingerprint object).outcome c = (.ok (.done record), c') ∧
      c'.engine = c.engine.putRegion place r ∧ c'.engine.resolve conn.handle = .ok (place, r) ∧
      record = conn.handle.record record.key ∧ r.records.get? record.key = some stored ∧
      stored.fields = Record.ints (s.encode withFingerprint object) := by
  by_cases hfails : ∃ k, k < s.recordLength withFingerprint ∧
      c.faults.failsWrite (c.writes + k) = true
  · obtain ⟨hk, hfirst⟩ := Nat.find_spec hfails
    have hpass : ∀ j < Nat.find hfails, c.faults.failsWrite (c.writes + j) = false := fun j hj =>
      Bool.eq_false_iff.2 fun hj' => Nat.find_min hfails hj ⟨hj.trans hk, hj'⟩
    obtain ⟨place, r, key, new, fields, -, -, -, -, -, hwriting⟩ :=
      outcome_writeWith_stopped object hcoherent h hk hfirst hpass
    exact .inl ⟨_, hfirst, _, _, hwriting⟩
  · have hpass : ∀ k < s.recordLength withFingerprint,
        c.faults.failsWrite (c.writes + k) = false := fun k hk =>
      Bool.eq_false_iff.2 fun hk' => hfails ⟨k, hk, hk'⟩
    exact .inr (outcome_writeWith_pass object hcoherent h hpass)

/-- The integers of an object stand in the order of the names. -/
theorem outcome_writeWith_created {record : RecordHandle} {created : Client}
    (hvalue : ∀ a ∈ s.attributes, a.get object = value a.name)
    (hcoherent : ∀ (place : Nat) r, c.engine.regions[place]? = some r → r.Coherent)
    (h : (conn.create (s.recordLength withFingerprint)).outcome c = (.ok (.done record), created)) :
    (∃ n, c.faults.failsWrite n = true ∧ ∃ err c',
      (conn.writeWith s withFingerprint object).outcome c = (.error err, c')) ∨
    ∃ c' place r stored,
      (conn.writeWith s withFingerprint object).outcome c = (.ok (.done record), c') ∧
      c'.engine = c.engine.putRegion place r ∧ c'.engine.resolve conn.handle = .ok (place, r) ∧
      record = conn.handle.record record.key ∧ r.records.get? record.key = some stored ∧
      stored.fields = Record.ints (s.layout withFingerprint value) := by
  rw [← Schema.encode_eq_layout hvalue]
  exact outcome_writeWith_encoded object hcoherent h

/-- **A record that was written** holds the integers of the object. -/
theorem recordAt_of_writeWith {record : RecordHandle} {written : Client}
    (hcoherent : ∀ (place : Nat) r, c.engine.regions[place]? = some r → r.Coherent)
    (h : (conn.writeWith s withFingerprint object).outcome c = (.ok (.done record), written)) :
    ∃ stored, written.engine.recordAt conn.handle record = .ok stored ∧
      stored.fields = Record.ints (s.encode withFingerprint object) := by
  rcases hcreate : (conn.create (s.recordLength withFingerprint)).outcome c with
    ⟨err | other | p, created⟩
  · rw [outcome_writeWith, hcreate] at h
    cases h
  · rcases outcome_writeWith_encoded object hcoherent hcreate with
      ⟨-, -, err, c', hfailed⟩ | ⟨c', place, r, stored, hwritten, -, hr, hkey, hstored, hfields⟩
    · cases hfailed.symm.trans h
    · cases hwritten.symm.trans h
      exact ⟨stored, Engine.recordAt_eq_ok_iff.2 ⟨hkey, place, r, hr, hstored⟩, hfields⟩
  · rw [outcome_writeWith, hcreate] at h
    cases h

/-- The integers of a record are integers of the region. -/
theorem holdsInt_of_ints {values : List Int32} {k : Nat} {v : Int32}
    (hrec : r.records.get? key = some rec) (hfields : rec.fields = Record.ints values)
    (h : values[k]? = some v) : r.HoldsInt key k v :=
  Region.holdsInt_iff.2 ⟨rec, hrec, hfields ▸ Record.getElem?_ints h⟩

/-- **Attributes are read** from the fields of their names. -/
theorem outcome_getAttributes {index : Nat} {attributes : List (Attribute α)}
    (hr : c.engine.resolve conn.handle = .ok (place, r))
    (h : ∀ k a, attributes[k]? = some a → r.HoldsInt key (index + k) (value a.name)) :
    (conn.getAttributes (conn.handle.record key) index object attributes).outcome c =
      (.ok (attributes.foldl (fun object a => a.set object (value a.name)) object), c) := by
  induction attributes generalizing index object with
  | nil => rfl
  | cons a rest ih =>
    have hfirst : (conn.getInt (conn.handle.record key) index).outcome c =
        (.ok (value a.name), c) := outcome_getInt hr (h 0 a rfl)
    have hrest : ∀ k b, rest[k]? = some b → r.HoldsInt key (index + 1 + k) (value b.name) := by
      intro k b hb
      have hnext := h (k + 1) b hb
      rwa [Nat.add_assoc, Nat.add_comm 1 k]
    rw [getAttributes, Action.outcome_bind, hfirst]
    exact ih hrest

/-- **A record that has the layout of a schema** is read as the object with its values. -/
theorem outcome_readWith (hr : c.engine.resolve conn.handle = .ok (place, r))
    (hrec : r.records.get? key = some rec)
    (hfields : rec.fields = Record.ints (s.layout withFingerprint value)) :
    (conn.readWith s withFingerprint (conn.handle.record key)).outcome c =
      (.ok (s.assigned value), c) := by
  have hlength : r.length key = .ok (s.recordLength withFingerprint) := by
    have hlayout : (s.layout withFingerprint value).length = s.recordLength withFingerprint :=
      Schema.length_layout
    have hsize : rec.fields.size = s.recordLength withFingerprint := by
      rw [hfields, ← hlayout]
      simp [Record.ints]
    simp only [Region.length, Region.record, hrec, Except.map, hsize]
  have hnames : ∀ k a, s.attributes[k]? = some a → r.HoldsInt key (0 + k) (value a.name) := by
    intro k a ha
    have hname : s.names[k]? = some a.name := by rw [Schema.names, List.getElem?_map, ha]; rfl
    rw [Nat.zero_add]
    exact holdsInt_of_ints hrec hfields (Schema.getElem?_layout hname)
  have hread : (conn.getAttributes (conn.handle.record key) 0 s.blank s.attributes).outcome c =
      (.ok (s.assigned value), c) := outcome_getAttributes hr hnames
  rw [readWith, Action.outcome_bind, outcome_length hr, hlength]
  simp only [Except.mapError, ne_eq, not_true_eq_false, if_false]
  cases withFingerprint with
  | false => exact hread
  | true =>
    have hstored := outcome_getInt hr
      (holdsInt_of_ints hrec hfields Schema.getElem?_layout_size)
    have hchecked : (conn.checkFingerprint s (conn.handle.record key)).outcome c = (.ok (), c) := by
      rw [checkFingerprint, Action.outcome_bind, hstored]
      simp only [if_true]
      rfl
    rw [if_pos rfl, Action.outcome_bind, hchecked]
    exact hread

end Connection

/-! ## Round trips -/

namespace Client

variable {c : Client}

/-- **What is written through one declaration is read through another.** Take two types that
declare the same different names, in any order and in either way, and values for the names. The
write of an object fails, where no write of a field is made to fail, as the creation of its record
does. It is broken off where the creation is, which takes more names than one block of memory has
room for. A record that is written has one field for each name, with the value of the k-th name in byte
order in field k, and the fingerprint behind them if it is asked for. As long as the record is not
changed, every connection to the region reads it through the other type as the object with the same
values. -/
theorem objects_round_trip (settings : EngineSettings) (calls : List Call) (conn : Connection)
    (t t' : TupleType) (value : String → Int32) (withFingerprint : Bool)
    (hengine : c.engine = (Engine.start settings).run calls) (hnodup : t.names.Nodup)
    (hperm : t'.names.Perm t.names) :
    ∃ s s', t.schema? = .ok s ∧ t'.schema? = .ok s' ∧
      let length := t.names.length + withFingerprint.toNat
      let creation := (conn.create length).outcome c
      let writing := (conn.writeWith s withFingerprint (t.object value)).outcome c
      ((∀ n, c.faults.failsWrite n = false) → ∀ err,
        writing.1 = .error err ↔ creation.1 = .error err) ∧
      (∀ p broken, writing = (.ok (.panicked p), broken) ↔ creation = (.ok (.panicked p), broken)) ∧
      (length ≤ Size.maxCells → ∀ p, creation.1 ≠ .ok (.panicked p)) ∧
      ∀ record written, writing = (.ok (.done record), written) →
        ∃ place r stored, written.engine = c.engine.putRegion place r ∧
          written.engine.resolve conn.handle = .ok (place, r) ∧
          record = conn.handle.record record.key ∧ r.records.get? record.key = some stored ∧
          stored.fields.size = length ∧
          (∀ name ∈ t.names,
            stored.fields[Schema.rank t.names name]? = some (some (.int (value name)))) ∧
          (withFingerprint = true →
            stored.fields[t.names.length]? = some (some (.int s.fingerprint))) ∧
          ∀ (later : Client) (reader : Connection) r',
            later.engine.resolve reader.handle = .ok (place, r') →
            r'.records.get? record.key = some stored →
            (reader.readWith s' withFingerprint (reader.handle.record record.key)).outcome later =
              (.ok (t'.object value), later) := by
  have hnodup' : t'.names.Nodup := hperm.nodup_iff.2 hnodup
  refine ⟨t.sortedSchema, t'.sortedSchema, TupleType.schema?_eq hnodup,
    TupleType.schema?_eq hnodup', ?_⟩
  intro length creation writing
  have hlength : t.sortedSchema.recordLength withFingerprint = length :=
    t.recordLength_sortedSchema withFingerprint
  have hvalue : ∀ a ∈ t.sortedSchema.attributes, a.get (t.object value) = value a.name :=
    fun a ha => TupleType.get_object (TupleType.mem_sortedSchema_iff.1 ha)
  have hcoherent : ∀ (place : Nat) r, c.engine.regions[place]? = some r → r.Coherent :=
    fun place r hr => Engine.coherent_run (hengine ▸ hr)
  have hfits : length ≤ Size.maxCells → ∀ p, creation.1 ≠ .ok (.panicked p) :=
    fun hsmall p hp => absurd (Connection.maxCells_lt_of_outcome_create
      (show creation = (.ok (.panicked p), creation.2) from Prod.ext hp rfl)) (Nat.not_lt.2 hsmall)
  by_cases hdone : ∃ record, creation.1 = .ok (.done record)
  · obtain ⟨record, hrecord⟩ := hdone
    have hcreate : creation = (.ok (.done record), creation.2) := Prod.ext hrecord rfl
    simp only [creation, ← hlength] at hcreate
    rcases Connection.outcome_writeWith_created hvalue hcoherent hcreate with
      ⟨n, hfails, err, c', hfailed⟩ |
      ⟨c', place, r, stored, hwritten, hengine', hr, hhandle, hstored, hfields⟩
    · have hwriting : writing = (.error err, c') := hfailed
      rw [hwriting]
      refine ⟨fun hnever => ?_, fun p broken => ?_, hfits, by nofun⟩
      · rw [hnever n] at hfails
        cases hfails
      · simp [Prod.ext_iff, hrecord]
    · have hwriting : writing = (.ok (.done record), c') := hwritten
      rw [hwriting]
      refine ⟨fun _ err => ?_, fun p broken => ?_, hfits, fun record' written h => ?_⟩
      · simp [hrecord]
      · simp [Prod.ext_iff, hrecord]
      · cases h
        obtain ⟨hsize, hnames, hfingerprint⟩ := TupleType.fields_of_layout hnodup hfields
        refine ⟨place, r, stored, hengine', hr, hhandle, hstored, hsize, hnames, hfingerprint, ?_⟩
        intro later reader r' hr' hstored'
        -- The reader's type has the same layout, and assigns it to its own entries.
        rw [← Schema.layout_congr (TupleType.names_sortedSchema_of_perm hperm)] at hfields
        rw [Connection.outcome_readWith hr' hstored' hfields,
          TupleType.assigned_sortedSchema hnodup']
  · have hwriting : writing = creation := by
      have hnone := fun record hrecord => hdone ⟨record, hrecord⟩
      simp only [creation, ← hlength] at hnone
      simp only [writing, creation, ← hlength]
      exact Connection.outcome_writeWith_uncreated _ withFingerprint _ hnone
    rw [hwriting]
    exact ⟨fun _ _ => Iff.rfl, fun _ _ => Iff.rfl, hfits,
      fun record written h => absurd ⟨record, congrArg Prod.fst h⟩ hdone⟩

/-- What one connection writes as a weight and an age, another one reads as an age and a
weight. -/
theorem objects_round_trip_swapped :
    let t : TupleType := ⟨"Sample", ["weight", "age"], false⟩
    let t' : TupleType := ⟨"SampleObject", ["age", "weight"], true⟩
    let shared := Call.openDatabase (some "objects") 0 false
    let c : Client := { engine := (Engine.start {}).run [shared, shared] }
    let writer : Connection := ⟨⟨⟨1⟩, ⟨1⟩, false⟩, {}⟩
    let reader : Connection := ⟨⟨⟨1⟩, ⟨2⟩, false⟩, {}⟩
    ∃ s s' record written, t.schema? = .ok s ∧ t'.schema? = .ok s' ∧
      (writer.writeWith s true #[80, 41]).outcome c = (.ok (.done record), written) ∧
      (reader.readWith s' true (reader.handle.record record.key)).outcome written =
        (.ok #[41, 80], written) := by
  intro t t' shared c writer reader
  obtain ⟨s, s', hs, hs', hfails, hbreaks, hfits, hreads⟩ := objects_round_trip {} [shared, shared] writer t t'
    (fun name => if name = "age" then 41 else 80) true (show c.engine = _ from rfl) (by decide)
    (List.Perm.swap "weight" "age" [])
  -- There is room for the record, so that the write neither fails nor is broken off.
  have hcreate : ((writer.create 3).outcome c).1 = .ok (.done (writer.handle.record ⟨0, 0⟩)) := rfl
  rcases hwriting : (writer.writeWith s true #[80, 41]).outcome c with ⟨err | record | p, written⟩
  · have hfailed := (hfails (fun _ => rfl) err).1 (congrArg Prod.fst hwriting)
    cases hcreate.symm.trans hfailed
  · obtain ⟨place, r, stored, hengine, hr, -, hstored, -, -, -, hread⟩ :=
      hreads record written hwriting
    have hplace : (some 0 : Option Nat) = some place := by
      have hfound := (Engine.resolve_eq_ok_iff.1 hr).1
      rwa [hengine] at hfound
    have hr' : written.engine.resolve reader.handle = .ok (place, r) := by
      obtain ⟨-, hregion, hid⟩ := Engine.resolve_eq_ok_iff.1 hr
      refine Engine.resolve_eq_ok_iff.2 ⟨?_, hregion, hid⟩
      rw [hengine, ← hplace]
      rfl
    exact ⟨s, s', record, written, hs, hs', hwriting, hread written reader r hr' hstored⟩
  · exact absurd (congrArg Prod.fst ((hbreaks p written).1 hwriting)) (hfits (by decide) p)

end Client

end RecordStore
