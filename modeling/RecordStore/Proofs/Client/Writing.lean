import RecordStore.Proofs.Client.Fields
import RecordStore.Proofs.Records.Changes
import RecordStore.Proofs.Schema.Layout
import RecordStore.Proofs.Space.Sums
/-!
# Writing — objects that are written as a whole or not at all

An object is written into a record of its own, one integer after the other.
Unset fields and integers take no space beyond that of the record, so that
none of these writes can fail for want of space: as many of them succeed as
the storage lets through (`outcome_setInts_steps`). If one fails the record is
deleted, whatever was written to it, and the region has the contents that it
had before the record was created (`delete_written`).
-/

namespace RecordStore

/-! ## Fields that are filled with integers -/

namespace Record

/-- The fields that integers come to. -/
def ints (values : List Int32) : Array Field := (values.map fun v => some (.int v)).toArray

/-- The fields of a record after integers were written to them from an index on. -/
def filled (fields : Array Field) (index : Nat) : List Int32 → Array Field
  | [] => fields
  | v :: rest => filled (fields.setIfInBounds index (some (.int v))) (index + 1) rest

variable {fields : Array Field} {index k : Nat} {values : List Int32} {v : Int32}

theorem size_filled : (filled fields index values).size = fields.size := by
  induction values generalizing fields index with
  | nil => rfl
  | cons v rest ih => rw [filled, ih, Array.size_setIfInBounds]

/-- What lies before the index is not written. -/
theorem getElem?_filled_of_lt (h : k < index) : (filled fields index values)[k]? = fields[k]? := by
  induction values generalizing fields index with
  | nil => rfl
  | cons v rest ih =>
    rw [filled, ih (by omega), Array.getElem?_setIfInBounds_ne (by omega)]

/-- Each integer is written behind the one before it. -/
theorem getElem?_filled (hfits : index + values.length ≤ fields.size) (h : values[k]? = some v) :
    (filled fields index values)[index + k]? = some (some (.int v)) := by
  induction values generalizing fields index k with
  | nil => cases h
  | cons first rest ih =>
    simp only [List.length_cons] at hfits
    cases k with
    | zero =>
      cases h
      have hlt : index < fields.size := by omega
      rw [filled, getElem?_filled_of_lt (by omega), Nat.add_zero,
        Array.getElem?_setIfInBounds_self_of_lt hlt]
    | succ k =>
      have hrest : index + 1 + rest.length ≤
          (fields.setIfInBounds index (some (.int first))).size := by
        rw [Array.size_setIfInBounds]
        omega
      have hnext := ih hrest h
      rwa [Nat.add_right_comm, Nat.add_assoc] at hnext

/-- **Fields that are all written** are the integers. -/
theorem filled_eq_ints (h : fields.size = values.length) :
    filled fields 0 values = ints values := by
  apply Array.ext_getElem?
  intro k
  rcases Nat.lt_or_ge k values.length with hk | hk
  · have hv : values[k]? = some values[k] := List.getElem?_eq_getElem hk
    have hfilled : (filled fields 0 values)[0 + k]? = some (some (.int values[k])) :=
      getElem?_filled (by omega) hv
    rw [Nat.zero_add] at hfilled
    rw [hfilled]
    simp [ints, hk]
  · have hsize : (filled fields 0 values).size ≤ k := by rw [size_filled]; omega
    rw [Array.getElem?_eq_none hsize]
    simp [ints, hk]

theorem getElem?_ints (h : values[k]? = some v) : (ints values)[k]? = some (some (.int v)) := by
  simp [ints, h]

/-- Fields that take no space beyond that of the record: none of them is a text or a blob. -/
def Light (fields : Array Field) : Prop := ∀ f ∈ fields, Field.storedSize f = 0

theorem light_replicate (length : Nat) : Light (Array.replicate length none) := by
  intro f hf
  rw [(Array.mem_replicate.1 hf).2]
  rfl

theorem Light.setInt (h : Light fields) (index : Nat) (v : Int32) :
    Light (fields.setIfInBounds index (some (.int v))) := by
  intro f hf
  rcases Array.mem_or_eq_of_mem_setIfInBounds hf with hold | rfl
  · exact h f hold
  · rfl

theorem Light.filled (h : Light fields) : Light (filled fields index values) := by
  induction values generalizing fields index with
  | nil => exact h
  | cons v rest ih => exact ih (h.setInt index v)

/-- **A record with such fields** is charged for its length alone. -/
theorem size_of_light {rec : Record} (h : Light rec.fields) :
    rec.size = Size.record rec.fields.size := by
  have hzero : (rec.fields.toList.map Field.storedSize).sum = 0 := by
    refine List.sum_eq_zero fun n hn => ?_
    obtain ⟨f, hf, rfl⟩ := List.mem_map.1 hn
    exact h f (Array.mem_toList_iff.1 hf)
  rw [size, ← Array.foldl_toList, Size.foldl_eq_sum, hzero, Nat.add_zero]

end Record

/-! ## The integers of an object -/

namespace Schema

variable {α : Type} {s : Schema α} {withFingerprint : Bool} {object : α}

theorem length_encode : (s.encode withFingerprint object).length = s.recordLength withFingerprint := by
  cases withFingerprint
  · simp [encode, recordLength, size]
  · simp [encode, recordLength, size]

/-- The integer of an attribute stands where the attribute does. -/
theorem getElem?_encode {k : Nat} {a : Attribute α} (h : s.attributes[k]? = some a) :
    (s.encode withFingerprint object)[k]? = some (a.get object) := by
  have hk : k < (s.attributes.map fun a => a.get object).length := by
    rw [List.length_map]
    exact (List.getElem?_eq_some_iff.1 h).1
  rw [encode, List.getElem?_append_left hk, List.getElem?_map, h, Option.map_some]

/-- The fingerprint stands behind the attributes. -/
theorem getElem?_encode_size : (s.encode true object)[s.size]? = some s.fingerprint := by
  simp [encode, size]

end Schema

/-! ## Regions with one record rewritten -/

namespace Region

variable {r r' created : Region} {key : SlotKey} {rec : Record} {length index : Nat}

/-- The region with another record under a key. -/
def withRecord (r : Region) (key : SlotKey) (rec : Record) : Region :=
  { r with records := r.records.replace key rec }

theorem withRecord_self (h : r.records.get? key = some rec) : r.withRecord key rec = r := by
  rw [withRecord, SlotTable.replace_self h]

theorem withRecord_withRecord (h : r.records.get? key = some rec) (rec₁ rec₂ : Record) :
    (r.withRecord key rec₁).withRecord key rec₂ = r.withRecord key rec₂ := by
  simp only [withRecord, SlotTable.replace_replace h]

theorem get?_withRecord (h : r.records.get? key = some rec) (rec₁ : Record) :
    (r.withRecord key rec₁).records.get? key = some rec₁ :=
  (SlotTable.get?_replace h).trans (if_pos rfl)

/-- **An integer over a light field** changes the record and nothing else. -/
theorem set_int_light (hrec : r.records.get? key = some rec) (hindex : index < rec.fields.size)
    (hlight : Record.Light rec.fields) (v : Int32) :
    r.set key index (.int v) = (.ok (), r.withRecord key
      { rec with fields := rec.fields.setIfInBounds index (some (.int v)) }) := by
  have hzero : Field.storedSize rec.fields[index] = 0 := hlight _ (Array.getElem_mem hindex)
  have hset := r.set_eq key index (.int v)
  simp only [hrec, Array.getElem?_eq_getElem hindex, hzero] at hset
  exact hset

/-- **The contents of a region**: what there is to see of it, without the slots that its records
lie in and the number that its next record gets. -/
structure SameContents (r r' : Region) : Prop where
  get? : ∀ key, r'.records.get? key = r.records.get? key
  count : r'.records.count = r.records.count
  rest : r' = { r with records := r'.records, nextSeq := r'.nextSeq }

namespace SameContents

theorem order (h : r.SameContents r') : r'.order = r.order := by rw [h.rest]

theorem queries (h : r.SameContents r') : r'.queries = r.queries := by rw [h.rest]

theorem lock (h : r.SameContents r') : r'.lock = r.lock := by rw [h.rest]

theorem stats (h : r.SameContents r') : r'.stats = r.stats := by
  have hcount := h.count
  rw [h.rest]
  simp only [Region.stats, isLocal, hcount]

theorem keyOf? (h : r.SameContents r') (entry : Nat × UInt32) :
    r'.keyOf? entry = r.keyOf? entry := by
  refine Option.ext fun key => ?_
  simp only [Region.keyOf?, SlotTable.keyAt?_eq_some_iff, h.get?]

theorem listing (h : r.SameContents r') : r'.listing = r.listing := by
  have hshown : r'.shown? = r.shown? := by
    funext entry
    simp only [shown?, h.keyOf?, h.get?]
  rw [Region.listing, Region.listing, h.order, hshown]

theorem first (h : r.SameContents r') : r'.first = r.first := by
  rw [Region.first, Region.first, h.order, funext h.keyOf?]

theorem next (h : r.SameContents r') (key : SlotKey) : r'.next key = r.next key := by
  rw [Region.next, Region.next, Region.record, Region.record, h.get?, h.order, funext h.keyOf?]

end SameContents

/-- A record that was created is there, with unset fields. -/
theorem get?_created (hw : r.records.WellFormed)
    (h : r.create length = (.ok (.done key), created)) :
    created.id = r.id ∧
      created.records.get? key = some ⟨r.nextSeq, Array.replicate length none⟩ := by
  obtain ⟨records, hinsert, -, -, rfl⟩ := create_eq_done h
  exact ⟨rfl, (SlotTable.get?_insert hw hinsert).trans (if_pos rfl)⟩

/-- **A record that was created, written and deleted** leaves nothing to see. -/
theorem delete_written {fields : Array Field} (hc : r.Coherent)
    (h : r.create length = (.ok (.done key), created)) (hlight : Record.Light fields)
    (hsize : fields.size = length) :
    ∃ r', (created.withRecord key ⟨r.nextSeq, fields⟩).delete key = (.ok (), r') ∧
      r.SameContents r' ∧ r'.records.get? key = none := by
  have hw := hc.records.toWellFormed
  obtain ⟨records, hinsert, -, -, rfl⟩ := create_eq_done h
  obtain ⟨removed, hremoved, hget, hcount⟩ :=
    SlotTable.remove?_inserted hw hinsert ⟨r.nextSeq, fields⟩
  -- The last entry of the order is the only one with the number of the record.
  have horder : (r.order ++ [(r.nextSeq, key.slot)]).filter (fun e => e.1 ≠ r.nextSeq) =
      r.order := by
    have hold : ∀ e ∈ r.order, decide (e.1 ≠ r.nextSeq) = true :=
      fun e he => decide_eq_true (Nat.ne_of_lt (hc.given e he))
    rw [List.filter_append, List.filter_eq_self.2 hold]
    simp
  have hused : r.used + Size.record length - Record.size ⟨r.nextSeq, fields⟩ = r.used := by
    rw [Record.size_of_light hlight, hsize, Nat.add_sub_cancel]
  refine ⟨{ r with records := removed, nextSeq := r.nextSeq + 1 }, ?_, ⟨hget, hcount, rfl⟩,
    (hget key).trans (SlotTable.get?_of_slot_insert hw hinsert rfl)⟩
  simp only [delete, withRecord, hremoved, refund, horder, hused]

end Region

/-! ## Writing through a connection -/

namespace Client

/-- The client after some writes of fields, which left a region at its place. -/
def wrote (c : Client) (writes place : Nat) (r : Region) : Client :=
  { c with writes := c.writes + writes, engine := c.engine.putRegion place r }

theorem wrote_wrote (c : Client) (m n place : Nat) (r r' : Region) :
    (c.wrote m place r).wrote n place r' = c.wrote (m + n) place r' := by
  simp only [wrote, Engine.putRegion_putRegion, Nat.add_assoc]

end Client

namespace Connection

variable {α : Type} {conn : Connection} {c c' : Client} {place : Nat} {r created : Region}
variable {key : SlotKey} {rec : Record} {s : Schema α} {withFingerprint : Bool} {object : α}

/-- A creation that fails changes nothing. -/
theorem outcome_create_error {length : Nat} {err : ClientError}
    (h : (conn.create length).outcome c = (.error err, c')) : c' = c := by
  have hperform : c.engine.perform (.create conn.handle length) =
      reword (.ofAttempt .record) (c.engine.create conn.handle length) := rfl
  simp only [create, Action.outcome_change] at h
  cases hcreate : c.engine.create conn.handle length with
  | mk answer e' =>
    rw [hcreate] at h hperform
    cases answer with
    | ok record => cases h
    | error err =>
      have hsame : (c.engine.perform (.create conn.handle length)).2 = c.engine :=
        Engine.perform_error (by rw [hperform]; rfl) fun _ _ _ hlock => Call.noConfusion hlock
      rw [hperform] at hsame
      obtain ⟨-, rfl⟩ := Prod.mk.inj h
      change { c with engine := e' } = c
      rw [show e' = c.engine from hsame]

/-- **Integers are written one by one**, as long as the storage lets the writes through. -/
theorem outcome_setInts_steps {index k : Nat} {values : List Int32}
    (hr : c.engine.resolve conn.handle = .ok (place, r)) (hrec : r.records.get? key = some rec)
    (hlight : Record.Light rec.fields) (hfits : index + values.length ≤ rec.fields.size)
    (hk : k ≤ values.length) (hpass : ∀ j < k, c.faults.failsWrite (c.writes + j) = false) :
    (conn.setInts (conn.handle.record key) index values).outcome c =
      (conn.setInts (conn.handle.record key) (index + k) (values.drop k)).outcome
        (c.wrote k place (r.withRecord key
          ⟨rec.seq, Record.filled rec.fields index (values.take k)⟩)) := by
  induction k generalizing c r rec index values with
  | zero =>
    simp only [Nat.add_zero, List.drop_zero, List.take_zero, Record.filled, Client.wrote,
      Region.withRecord_self hrec, Engine.putRegion_self (Engine.getElem?_of_resolve hr)]
  | succ k ih =>
    cases values with
    | nil => cases hk
    | cons v rest =>
      simp only [List.length_cons] at hfits hk
      have hindex : index < rec.fields.size := by omega
      have hpassed : c.faults.failsWrite c.writes = false := hpass 0 k.succ_pos
      have hfirst := outcome_set hr (Region.set_int_light hrec hindex hlight v)
      rw [if_neg (by simp [hpassed])] at hfirst
      rw [setInts, Action.outcome_bind, hfirst]
      -- The rest is written to what the first write left.
      let next : Record := ⟨rec.seq, rec.fields.setIfInBounds index (some (.int v))⟩
      have hnext : (c.wrote 1 place (r.withRecord key next)).engine.resolve conn.handle =
          .ok (place, r.withRecord key next) := Engine.resolve_putRegion hr rfl
      have hfitsNext : index + 1 + rest.length ≤ next.fields.size := by
        simp only [next, Array.size_setIfInBounds]
        omega
      have hpassNext : ∀ j < k, c.faults.failsWrite (c.writes + 1 + j) = false := fun j hj => by
        rw [Nat.add_assoc, Nat.add_comm 1 j]
        exact hpass (j + 1) (Nat.succ_lt_succ hj)
      have hrest := ih hnext (Region.get?_withRecord hrec next) (hlight.setInt index v) hfitsNext
        (Nat.le_of_succ_le_succ hk) hpassNext
      rw [Client.wrote_wrote, Region.withRecord_withRecord hrec, Nat.add_comm 1 k,
        Nat.add_right_comm] at hrest
      exact hrest

/-- **A write of an object** fails or is broken off as the creation of its record is; else its
integers are written, and the record is deleted where that fails. -/
theorem outcome_writeWith (s : Schema α) (withFingerprint : Bool) (object : α) :
    (conn.writeWith s withFingerprint object).outcome c =
      match (conn.create (s.recordLength withFingerprint)).outcome c with
      | (.error err, created) => (.error err, created)
      | (.ok (.panicked p), created) => (.ok (.panicked p), created)
      | (.ok (.done record), created) =>
        match (conn.setInts record 0 (s.encode withFingerprint object)).outcome created with
        | (.error err, failed) => (.error err, ((conn.delete record).outcome failed).2)
        | (.ok (), written) => (.ok (.done record), written) := by
  rw [writeWith, Action.outcome_bind]
  rcases (conn.create (s.recordLength withFingerprint)).outcome c with ⟨err | record | p, created⟩
  · rfl
  · simp only [Action.outcome_tryCatch, Action.outcome_bind]
    cases (conn.setInts record 0 (s.encode withFingerprint object)).outcome created with
    | mk answer c' => cases answer <;> rfl
  · rfl

/-- Where no record is created, the write comes out as the creation does. -/
theorem outcome_writeWith_uncreated (s : Schema α) (withFingerprint : Bool) (object : α)
    (h : ∀ record, ((conn.create (s.recordLength withFingerprint)).outcome c).1 ≠
      .ok (.done record)) :
    (conn.writeWith s withFingerprint object).outcome c =
      (conn.create (s.recordLength withFingerprint)).outcome c := by
  rw [outcome_writeWith]
  generalize (conn.create (s.recordLength withFingerprint)).outcome c = creation at h ⊢
  rcases creation with ⟨err | record | p, created⟩
  · rfl
  · exact absurd rfl (h record)
  · rfl

section Created

variable {record : RecordHandle} {k : Nat}

/-- **The integers of an object are written into its new record** as far as the storage lets the
writes through. -/
theorem outcome_setInts_created (object : α)
    (hcoherent : ∀ (place : Nat) r, c.engine.regions[place]? = some r → r.Coherent)
    (h : (conn.create (s.recordLength withFingerprint)).outcome c = (.ok (.done record), c'))
    (hk : k ≤ s.recordLength withFingerprint)
    (hpass : ∀ j < k, c.faults.failsWrite (c.writes + j) = false) :
    let values := s.encode withFingerprint object
    let length := s.recordLength withFingerprint
    ∃ place r key created, c.engine.resolve conn.handle = .ok (place, r) ∧
      r.create length = (.ok (.done key), created) ∧ record = conn.handle.record key ∧
      (conn.setInts record 0 values).outcome c' = (conn.setInts record k (values.drop k)).outcome
        (c.wrote k place (created.withRecord key
          ⟨r.nextSeq, Record.filled (Array.replicate length none) 0 (values.take k)⟩)) := by
  intro values length
  obtain ⟨place, r, key, created, hr, hcreate, rfl, rfl⟩ := outcome_create_done h
  obtain ⟨hid, hnew⟩ := Region.get?_created
    (hcoherent place r (Engine.getElem?_of_resolve hr)).records.toWellFormed hcreate
  have hlength : values.length = length := Schema.length_encode
  have hfits : 0 + values.length ≤ (Array.replicate length (none : Field)).size := by
    rw [Array.size_replicate, hlength, Nat.zero_add]
  have hcreated : (c.wrote 0 place created).engine.resolve conn.handle = .ok (place, created) :=
    Engine.resolve_putRegion hr hid
  have hsteps := outcome_setInts_steps hcreated hnew (Record.light_replicate length) hfits
    (hlength ▸ hk) hpass
  rw [Client.wrote_wrote, Nat.zero_add] at hsteps
  exact ⟨place, r, key, created, hr, hcreate, rfl, hsteps⟩

/-- **An object is written as a whole** if all its writes are let through. -/
theorem outcome_writeWith_pass (object : α)
    (hcoherent : ∀ (place : Nat) r, c.engine.regions[place]? = some r → r.Coherent)
    (h : (conn.create (s.recordLength withFingerprint)).outcome c = (.ok (.done record), c'))
    (hpass : ∀ k < s.recordLength withFingerprint, c.faults.failsWrite (c.writes + k) = false) :
    ∃ written place r stored,
      (conn.writeWith s withFingerprint object).outcome c = (.ok (.done record), written) ∧
      written.engine = c.engine.putRegion place r ∧
      written.engine.resolve conn.handle = .ok (place, r) ∧
      record = conn.handle.record record.key ∧ r.records.get? record.key = some stored ∧
      stored.fields = Record.ints (s.encode withFingerprint object) := by
  obtain ⟨place, r, key, created, hr, hcreate, rfl, hset⟩ :=
    outcome_setInts_created object hcoherent h (Nat.le_refl _) hpass
  have hlength : (s.encode withFingerprint object).length = s.recordLength withFingerprint :=
    Schema.length_encode
  rw [List.drop_of_length_le (Nat.le_of_eq hlength),
    List.take_of_length_le (Nat.le_of_eq hlength),
    Record.filled_eq_ints (by rw [Array.size_replicate, hlength])] at hset
  obtain ⟨hid, hnew⟩ := Region.get?_created
    (hcoherent place r (Engine.getElem?_of_resolve hr)).records.toWellFormed hcreate
  let stored : Record := ⟨r.nextSeq, Record.ints (s.encode withFingerprint object)⟩
  refine ⟨c.wrote (s.recordLength withFingerprint) place (created.withRecord key stored), place, _,
    stored, ?_, rfl, Engine.resolve_putRegion hr hid, rfl, Region.get?_withRecord hnew stored, rfl⟩
  rw [outcome_writeWith, h]
  simp only [hset]
  rfl

/-- **A write of an object stops** at the first of its writes that fails, and goes on to delete
the record. -/
theorem outcome_writeWith_stopped (object : α)
    (hcoherent : ∀ (place : Nat) r, c.engine.regions[place]? = some r → r.Coherent)
    (h : (conn.create (s.recordLength withFingerprint)).outcome c = (.ok (.done record), c'))
    (hk : k < s.recordLength withFingerprint) (hfails : c.faults.failsWrite (c.writes + k) = true)
    (hpass : ∀ j < k, c.faults.failsWrite (c.writes + j) = false) :
    let length := s.recordLength withFingerprint
    ∃ place r key created fields, c.engine.resolve conn.handle = .ok (place, r) ∧
      r.create length = (.ok (.done key), created) ∧ record = conn.handle.record key ∧
      Record.Light fields ∧ fields.size = length ∧
      (conn.writeWith s withFingerprint object).outcome c =
        (.error (.engine (c.faults.failure (c.writes + k))), ((conn.delete record).outcome
          (c.wrote (k + 1) place (created.withRecord key ⟨r.nextSeq, fields⟩))).2) := by
  intro length
  obtain ⟨place, r, key, created, hr, hcreate, hrecord, hset⟩ :=
    outcome_setInts_created object hcoherent h (Nat.le_of_lt hk) hpass
  have hlength : (s.encode withFingerprint object).length = length := Schema.length_encode
  have hrest : (s.encode withFingerprint object).drop k ≠ [] := by
    rw [ne_eq, List.drop_eq_nil_iff, hlength]
    exact Nat.not_le_of_lt hk
  obtain ⟨v, rest, hdrop⟩ := List.exists_cons_of_ne_nil hrest
  have hstop := outcome_set_fault conn record k (.int v) (c := c.wrote k place (created.withRecord key
    ⟨r.nextSeq, Record.filled (Array.replicate length none) 0
      ((s.encode withFingerprint object).take k)⟩)) hfails
  rw [hdrop, setInts, Action.outcome_bind, hstop] at hset
  refine ⟨place, r, key, created, Record.filled (Array.replicate length none) 0
    ((s.encode withFingerprint object).take k), hr, hcreate, hrecord,
    (Record.light_replicate length).filled, by rw [Record.size_filled, Array.size_replicate], ?_⟩
  rw [outcome_writeWith, h]
  simp only [hset]
  rfl

/-- **An object is not written at all** if one of its writes fails and its record can be deleted. -/
theorem outcome_writeWith_fault (object : α)
    (hcoherent : ∀ (place : Nat) r, c.engine.regions[place]? = some r → r.Coherent)
    (hdeletes : c.faults.refusesDeletes = false)
    (h : (conn.create (s.recordLength withFingerprint)).outcome c = (.ok (.done record), c'))
    (hk : k < s.recordLength withFingerprint) (hfails : c.faults.failsWrite (c.writes + k) = true)
    (hpass : ∀ j < k, c.faults.failsWrite (c.writes + j) = false) :
    ∃ place r r', c.engine.resolve conn.handle = .ok (place, r) ∧
      (conn.writeWith s withFingerprint object).outcome c =
        (.error (.engine (c.faults.failure (c.writes + k))), c.wrote (k + 1) place r') ∧
      r.SameContents r' ∧ record = conn.handle.record record.key ∧
      r'.records.get? record.key = none := by
  obtain ⟨place, r, key, created, fields, hr, hcreate, rfl, hlight, hsize, hwriting⟩ :=
    outcome_writeWith_stopped object hcoherent h hk hfails hpass
  have hplace := hcoherent place r (Engine.getElem?_of_resolve hr)
  obtain ⟨hid, -⟩ := Region.get?_created hplace.records.toWellFormed hcreate
  obtain ⟨r', hdelete, hsame, hgone⟩ := Region.delete_written hplace hcreate hlight hsize
  have hwritten : (c.wrote (k + 1) place (created.withRecord key ⟨r.nextSeq, fields⟩)).engine.resolve
      conn.handle = .ok (place, created.withRecord key ⟨r.nextSeq, fields⟩) :=
    Engine.resolve_putRegion hr hid
  have hdeleted := outcome_delete hwritten hdeletes hdelete
  refine ⟨place, r, r', hr, ?_, hsame, rfl, hgone⟩
  rw [hwriting, hdeleted]
  simp only [Client.wrote, Engine.putRegion_putRegion]

end Created

/-- **A write of an object is all or nothing**, whichever writes of fields the storage lets fail,
as long as it lets records be deleted. If the record of the object cannot be created, the write
fails as the creation does, and nothing has changed. Only an object with more attributes than one
block of memory has room for breaks the write off, as it breaks the creation off. If all writes are
let through, the write gives the new record, which holds every attribute in its field and the
fingerprint behind them if it is asked for. If a write is not, the first such failure is the failure
of the whole. No region but that of the connection has changed, and that one has the contents that
it had: the same records under the same handles, in the same order and with the same fields, the
same use of space, the same queries. The handle of the record that was partly written is good for
nothing. -/
theorem write_is_all_or_nothing (settings : EngineSettings) (calls : List Call)
    (hengine : c.engine = (Engine.start settings).run calls)
    (hdeletes : c.faults.refusesDeletes = false) (conn : Connection) (s : Schema α)
    (withFingerprint : Bool) (object : α) :
    let length := s.recordLength withFingerprint
    let creation := (conn.create length).outcome c
    let writing := (conn.writeWith s withFingerprint object).outcome c
    let fails := fun k => c.faults.failsWrite (c.writes + k)
    (∀ err, creation.1 = .error err → writing = (.error err, c)) ∧
      (∀ p, creation.1 = .ok (.panicked p) → writing = creation ∧ Size.maxCells < length) ∧
      ∀ record, creation.1 = .ok (.done record) →
        ((∀ k < length, fails k = false) → ∃ stored, writing.1 = .ok (.done record) ∧
          writing.2.engine.recordAt conn.handle record = .ok stored ∧
          stored.fields.size = length ∧
          (∀ (k : Nat) a, s.attributes[k]? = some a →
            stored.fields[k]? = some (some (.int (a.get object)))) ∧
          (withFingerprint = true →
            stored.fields[s.size]? = some (some (.int s.fingerprint)))) ∧
        ∀ k < length, fails k = true → (∀ j < k, fails j = false) →
          ∃ place r r', c.engine.resolve conn.handle = .ok (place, r) ∧
            writing = (.error (.engine (c.faults.failure (c.writes + k))),
              { c with writes := c.writes + k + 1, engine := c.engine.putRegion place r' }) ∧
            r.SameContents r' ∧ r'.listing = r.listing ∧ r'.first = r.first ∧
            (∀ key, r'.next key = r.next key) ∧ r'.stats = r.stats ∧ r'.queries = r.queries ∧
            writing.2.engine.recordAt conn.handle record = .error (.badRecord .recordGone) := by
  intro length creation writing fails
  have hcoherent : ∀ (place : Nat) r, c.engine.regions[place]? = some r → r.Coherent :=
    fun place r hr => Engine.coherent_run (hengine ▸ hr)
  have huncreated : (∀ record, creation.1 ≠ .ok (.done record)) → writing = creation :=
    outcome_writeWith_uncreated s withFingerprint object
  refine ⟨fun err herr => ?_, fun p hpanic => ?_, fun record hrecord => ?_⟩
  · have hcreate : creation = (.error err, creation.2) := Prod.ext herr rfl
    rw [huncreated (by simp [herr]), hcreate, outcome_create_error hcreate]
  · have hcreate : creation = (.ok (.panicked p), creation.2) := Prod.ext hpanic rfl
    exact ⟨huncreated (by simp [hpanic]), maxCells_lt_of_outcome_create hcreate⟩
  · have hcreate : creation = (.ok (.done record), creation.2) := Prod.ext hrecord rfl
    refine ⟨fun hpass => ?_, fun k hk hfails hpass => ?_⟩
    · obtain ⟨written, place, r, stored, hwriting, -, hr, hkey, hstored, hfields⟩ :=
        outcome_writeWith_pass object hcoherent hcreate hpass
      have hwritten : writing = (.ok (.done record), written) := hwriting
      rw [hwritten]
      refine ⟨stored, rfl, Engine.recordAt_eq_ok_iff.2 ⟨hkey, place, r, hr, hstored⟩, ?_,
        fun k a ha => ?_, fun hasked => ?_⟩
      · rw [hfields]
        simp [Record.ints, Schema.length_encode, length]
      · rw [hfields]
        exact Record.getElem?_ints (Schema.getElem?_encode ha)
      · subst hasked
        rw [hfields]
        exact Record.getElem?_ints Schema.getElem?_encode_size
    · obtain ⟨place, r, r', hr, hwriting, hsame, hkey, hgone⟩ :=
        outcome_writeWith_fault object hcoherent hdeletes hcreate hk hfails hpass
      refine ⟨place, r, r', hr, hwriting, hsame, hsame.listing, hsame.first, hsame.next,
        hsame.stats, hsame.queries, ?_⟩
      have hr' : writing.2.engine.resolve conn.handle = .ok (place, r') := by
        simp only [writing, hwriting]
        exact Engine.resolve_putRegion hr (by rw [hsame.rest])
      rw [hkey]
      simp only [Engine.recordAt, checkRecord_self, Except.bind, Engine.askRegion, hr']
      simp only [Region.record, DbHandle.record, hgone]

/-- In a region with an empty slot an object whose second write fails is not written, and is
written if no write fails. -/
theorem write_is_all_or_nothing_reused :
    let conn : Connection := ⟨⟨⟨1⟩, ⟨1⟩, true⟩, {}⟩
    let s : Schema (Array Int32) := ⟨"Sample", #[0, 0], [.entry "age" 0, .entry "weight" 1]⟩
    let record := conn.handle.record ⟨0, 1⟩
    let sound : Client := { engine := (Engine.start {}).run [.openDatabase none 0 true,
      .create conn.handle 1, .create conn.handle 2, .delete conn.handle (conn.handle.record ⟨0, 0⟩)] }
    let flaky : Client := { sound with faults := { failsWrite := fun n => n = 1 } }
    (∃ written stored,
        (conn.writeWith s true #[41, 80]).outcome sound = (.ok (.done record), written) ∧
        written.engine.recordAt conn.handle record = .ok stored ∧
        stored.fields[1]? = some (some (.int 80))) ∧
      ∃ failed, (conn.writeWith s true #[41, 80]).outcome flaky =
          (.error (.engine (.regionFull 8 0)), failed) ∧
        failed.engine.recordAt conn.handle record = .error (.badRecord .recordGone) ∧
        failed.engine.stats conn.handle = flaky.engine.stats conn.handle := by
  intro conn s record sound flaky
  have hcreated : ((conn.create 3).outcome sound).1 = .ok (.done record) := by decide +zetaReduce
  have hcreated' : ((conn.create 3).outcome flaky).1 = .ok (.done record) := by decide +zetaReduce
  obtain ⟨-, -, hsound⟩ := write_is_all_or_nothing (c := sound) {} _ rfl rfl conn s true #[41, 80]
  obtain ⟨-, -, hflaky⟩ := write_is_all_or_nothing (c := flaky) {} _ rfl rfl conn s true #[41, 80]
  obtain ⟨hpass, -⟩ := hsound record hcreated
  obtain ⟨-, hfault⟩ := hflaky record hcreated'
  obtain ⟨stored, hwritten, hstored, -, hattributes, -⟩ := hpass fun _ _ => rfl
  obtain ⟨place, r, r', hr, hfailed, hsame, -, -, -, hstats, -, hgone⟩ :=
    hfault 1 (by decide) (by decide) (by decide)
  have hweight := hattributes 1 (.entry "weight" 1) rfl
  rw [hfailed] at hgone
  have hr' : (flaky.engine.putRegion place r').resolve conn.handle = .ok (place, r') :=
    Engine.resolve_putRegion hr (by rw [hsame.rest])
  have hspace : (flaky.engine.putRegion place r').stats conn.handle =
      flaky.engine.stats conn.handle := by
    simp only [Engine.stats, Engine.askRegion, hr, hr']
    exact congrArg Except.ok hstats
  refine ⟨?_, _, hfailed, hgone, hspace⟩
  generalize (conn.writeWith s true #[41, 80]).outcome sound = writing at hwritten hstored ⊢
  obtain ⟨answer, written⟩ := writing
  cases hwritten
  exact ⟨written, stored, rfl, hstored, by simpa [Attribute.entry] using hweight⟩

end Connection

end RecordStore
