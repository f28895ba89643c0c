import RecordStore.Client.Records
import RecordStore.Proofs.Client.Actions
import RecordStore.Proofs.Engine.Serving
import RecordStore.Proofs.Region.Outcomes
/-!
# Fields through a connection — integers that are written and read

A connection whose handle stands for a region answers for that region. An
integer takes no space of its own, so that it can be written wherever there
is a field.
-/

namespace RecordStore

namespace Region

variable {r r' : Region} {key : SlotKey} {rec : Record} {index : Nat} {v : Int32}

/-- An integer field of the region has the value. -/
def HoldsInt (r : Region) (key : SlotKey) (index : Nat) (v : Int32) : Prop :=
  r.get key index = .ok (some (.int v))

theorem holdsInt_iff :
    r.HoldsInt key index v ↔
      ∃ rec, r.records.get? key = some rec ∧ rec.fields[index]? = some (some (.int v)) := by
  unfold HoldsInt get record
  cases hrec : r.records.get? key with
  | none => simp [bind, Except.bind]
  | some rec =>
    simp only [bind, Except.bind, Option.some.injEq, exists_eq_left']
    cases hfield : rec.fields[index]? with
    | none => simp
    | some field => simp

/-- **An integer can be written** to any field that there is. -/
theorem exists_set_int (hrec : r.records.get? key = some rec) (hindex : index < rec.fields.size)
    (v : Int32) :
    ∃ r', r.set key index (.int v) = (.ok (), r') ∧
      r'.records.get? key =
        some { rec with fields := rec.fields.setIfInBounds index (some (.int v)) } ∧
      r'.id = r.id ∧ r'.lock = r.lock := by
  have hfits : ¬ r.available + Field.storedSize rec.fields[index] <
      FieldValue.storedSize (.int v) := Nat.not_lt_zero _
  have hset := r.set_eq key index (.int v)
  simp only [hrec, Array.getElem?_eq_getElem hindex, if_neg hfits] at hset
  exact ⟨_, hset, (SlotTable.get?_replace hrec).trans (if_pos rfl), rfl, rfl⟩

/-- Where an integer was there is room for another one. -/
theorem HoldsInt.set (h : r.HoldsInt key index v) (v' : Int32) :
    ∃ r', r.set key index (.int v') = (.ok (), r') ∧ r'.HoldsInt key index v' ∧ r'.id = r.id ∧
      r'.lock = r.lock := by
  obtain ⟨rec, hrec, hfield⟩ := holdsInt_iff.1 h
  have hindex := (Array.getElem?_eq_some_iff.1 hfield).1
  obtain ⟨r', hset, hrec', hid, hlock⟩ := exists_set_int hrec hindex v'
  exact ⟨r', hset, holdsInt_iff.2 ⟨_, hrec', by simp [hindex]⟩, hid, hlock⟩

end Region

namespace Connection

variable {conn : Connection} {c : Client} {place : Nat} {r r' : Region} {key : SlotKey}
variable {index : Nat} {v : Int32}

theorem checkRecord_self (db : DbHandle) (key : SlotKey) :
    Engine.checkRecord db (db.record key) = .ok () := if_pos ⟨rfl, rfl⟩

/-- **A creation that is not refused** is carried out in the region of the connection. -/
theorem outcome_create_ok {length : Nat} {attempt : Attempt RecordHandle} {c' : Client}
    (h : (conn.create length).outcome c = (.ok attempt, c')) :
    ∃ place r answer r', c.engine.resolve conn.handle = .ok (place, r) ∧
      r.create length = (.ok answer, r') ∧ attempt = answer.map conn.handle.record ∧
      c' = { c with engine := c.engine.putRegion place r' } := by
  simp only [create, Action.outcome_change, Engine.create] at h
  cases hcheck : c.engine.checkLength length with
  | error err =>
    simp only [hcheck, Engine.checkedOn] at h
    cases h
  | ok _ =>
    simp only [hcheck, Engine.checkedOn, Engine.onRegion] at h
    cases hr : c.engine.resolve conn.handle with
    | error err =>
      simp only [hr] at h
      cases h
    | ok found =>
      obtain ⟨place, r⟩ := found
      simp only [hr] at h
      rcases hcreate : r.create length with ⟨err | answer, r'⟩
      · rw [hcreate] at h
        cases h
      · rw [hcreate] at h
        cases h
        exact ⟨place, r, answer, r', rfl, hcreate, rfl, rfl⟩

/-- **A creation that succeeds** gives the handle of the record in the region. -/
theorem outcome_create_done {length : Nat} {record : RecordHandle} {c' : Client}
    (h : (conn.create length).outcome c = (.ok (.done record), c')) :
    ∃ place r key r', c.engine.resolve conn.handle = .ok (place, r) ∧
      r.create length = (.ok (.done key), r') ∧ record = conn.handle.record key ∧
      c' = { c with engine := c.engine.putRegion place r' } := by
  obtain ⟨place, r, answer, r', hr, hcreate, hanswer, hc'⟩ := outcome_create_ok h
  cases answer with
  | done key => exact ⟨place, r, key, r', hr, hcreate, Attempt.done.inj hanswer, hc'⟩
  | panicked p => cases hanswer

/-- Only a record that passes a block of memory breaks its creation off. -/
theorem maxCells_lt_of_outcome_create {length : Nat} {p : Panic} {c' : Client}
    (h : (conn.create length).outcome c = (.ok (.panicked p), c')) : Size.maxCells < length := by
  obtain ⟨-, r, answer, r', -, hcreate, hanswer, -⟩ := outcome_create_ok h
  cases answer with
  | done key => cases hanswer
  | panicked q => exact Region.maxCells_lt_of_panicked hcreate

theorem outcome_length (hr : c.engine.resolve conn.handle = .ok (place, r)) :
    (conn.length (conn.handle.record key)).outcome c =
      ((r.length key).mapError .engine, c) := by
  have hanswer : c.engine.length conn.handle (conn.handle.record key) = r.length key := by
    simp only [Engine.length, checkRecord_self, Except.bind, Engine.askRegion, hr]
    rfl
  change ((c.engine.length conn.handle (conn.handle.record key)).mapError _, c) = _
  rw [hanswer]

theorem outcome_get (hr : c.engine.resolve conn.handle = .ok (place, r)) :
    (conn.get (conn.handle.record key) index).outcome c =
      ((r.get key index).mapError .engine, c) := by
  have hanswer : c.engine.get conn.handle (conn.handle.record key) index = r.get key index := by
    simp only [Engine.get, checkRecord_self, Except.bind, Engine.askRegion, hr]
    rfl
  change ((c.engine.get conn.handle (conn.handle.record key) index).mapError _, c) = _
  rw [hanswer]

/-- An integer is read as what it is. -/
theorem outcome_getInt (hr : c.engine.resolve conn.handle = .ok (place, r))
    (h : r.HoldsInt key index v) :
    (conn.getInt (conn.handle.record key) index).outcome c = (.ok v, c) := by
  rw [getInt, getTyped, Action.outcome_bind, outcome_get hr, h]
  rfl

theorem outcome_set (hr : c.engine.resolve conn.handle = .ok (place, r))
    (hset : r.set key index (.int v) = (.ok (), r')) :
    (conn.set (conn.handle.record key) index (.int v)).outcome c =
      if c.faults.failsWrite c.writes then
        (.error (.engine (c.faults.failure c.writes)), { c with writes := c.writes + 1 })
      else
        (.ok (), { c with writes := c.writes + 1, engine := c.engine.putRegion place r' }) := by
  have hcall : c.engine.set conn.handle (conn.handle.record key) index (.int v) =
      (.ok (), c.engine.putRegion place r') := by
    have hcheck : ((Engine.checkRecord conn.handle (conn.handle.record key)).bind fun _ =>
        Engine.checkValue (.int v)) = .ok () := by rw [checkRecord_self]; rfl
    have hserve : r.set (conn.handle.record key).key index (.int v) = (.ok (), r') := hset
    simp only [Engine.set, hcheck, Engine.checkedOn, Engine.onRegion, hr, hserve]
  change (if _ then _ else _ : _ × Client) = _
  split
  · rfl
  · rw [Action.outcome_change, hcall]
    rfl

/-- A write that the plan lets fail is not made. -/
theorem outcome_set_fault (conn : Connection) (rec : RecordHandle) (index : Nat)
    (value : FieldValue) (hfails : c.faults.failsWrite c.writes = true) :
    (conn.set rec index value).outcome c =
      (.error (.engine (c.faults.failure c.writes)), { c with writes := c.writes + 1 }) := by
  rw [set, Action.outcome_ofState]
  exact if_pos hfails

/-- A record is deleted, unless the plan refuses it. -/
theorem outcome_delete (hr : c.engine.resolve conn.handle = .ok (place, r))
    (hdeletes : c.faults.refusesDeletes = false) (h : r.delete key = (.ok (), r')) :
    (conn.delete (conn.handle.record key)).outcome c =
      (.ok (), { c with engine := c.engine.putRegion place r' }) := by
  have hserve : r.delete (conn.handle.record key).key = (.ok (), r') := h
  have hcall : c.engine.delete conn.handle (conn.handle.record key) =
      (.ok (), c.engine.putRegion place r') := by
    simp only [Engine.delete, checkRecord_self, Engine.checkedOn, Engine.onRegion, hr, hserve]
  rw [delete, Action.outcome_ofState, if_neg (by simp [hdeletes]), Action.outcome_change, hcall]
  rfl

end Connection

/-! ## The record that a handle stands for -/

namespace Engine

variable {e : Engine} {db : DbHandle} {rec : RecordHandle} {stored : Record} {err : Error}

/-- The record that a handle stands for, if it is good for one through the attachment. -/
def recordAt (e : Engine) (db : DbHandle) (rec : RecordHandle) : Except Error Record :=
  (checkRecord db rec).bind fun _ => e.askRegion db fun r => r.record rec.key

/-- **A handle is good** if it was obtained through the attachment, which stands for a region in
which the record is live. -/
theorem recordAt_eq_ok_iff :
    e.recordAt db rec = .ok stored ↔
      rec = db.record rec.key ∧ ∃ place r, e.resolve db = .ok (place, r) ∧
        r.records.get? rec.key = some stored := by
  have hstamp : (rec.region = db.region ∧ rec.connection = db.connection) ↔
      rec = db.record rec.key := by
    obtain ⟨region, connection, key⟩ := rec
    simp [DbHandle.record]
  rw [← hstamp]
  unfold recordAt checkRecord
  split
  · rename_i hrec
    simp only [hrec, and_self, true_and, Except.bind, askRegion]
    cases e.resolve db with
    | error err => simp
    | ok found =>
      obtain ⟨place, r⟩ := found
      simp only [Region.record, Except.ok.injEq, Prod.mk.injEq]
      cases hget : r.records.get? rec.key <;> simp [hget]
  · rename_i hrec
    simp [hrec, Except.bind]

/-- A handle that is good for no record is refused as a handle. -/
theorem code_of_recordAt (h : e.recordAt db rec = .error err) : err.code = .invalidHandle := by
  unfold recordAt checkRecord at h
  split at h
  · simp only [Except.bind, askRegion] at h
    cases hr : e.resolve db with
    | error fault =>
      rw [hr] at h
      cases h
      unfold resolve at hr
      split at hr
      · cases hr
        rfl
      · split at hr <;> cases hr
        rfl
    | ok found =>
      simp only [hr, Region.record] at h
      split at h <;> cases h
      rfl
  · cases h
    rfl

theorem length_eq_recordAt (e : Engine) (db : DbHandle) (rec : RecordHandle) :
    e.length db rec = (e.recordAt db rec).map fun stored => stored.fields.size := by
  unfold length recordAt
  cases checkRecord db rec with
  | error err => rfl
  | ok _ =>
    simp only [Except.bind, askRegion]
    cases e.resolve db <;> rfl

theorem get_of_recordAt {index : Nat} {field : Field} (h : e.recordAt db rec = .ok stored)
    (hfield : stored.fields[index]? = some field) : e.get db rec index = .ok field := by
  obtain ⟨hrec, place, r, hr, hget⟩ := recordAt_eq_ok_iff.1 h
  have hcheck : checkRecord db rec = .ok () := by
    rw [hrec]
    exact Connection.checkRecord_self db rec.key
  simp only [get, hcheck, Except.bind, askRegion, hr, Region.get, Region.record, hget, bind,
    hfield]

end Engine

end RecordStore
