import RecordStore.Engine.Basic
/-!
# Calls on records, fields and queries

The handle of a record or query must have been obtained through the same
attachment as the handle of the database it is used with. This is checked
first; then come the checks of the value, of the attachment and of the
region, in this order.
-/

namespace RecordStore

namespace Engine

/-- Fails unless the record was obtained through the attachment. -/
def checkRecord (db : DbHandle) (rec : RecordHandle) : Except Error Unit :=
  if rec.region = db.region ∧ rec.connection = db.connection then .ok ()
  else .error (.badRecord .foreignRecord)

/-- Fails unless the query was built through the attachment. -/
def checkQuery (db : DbHandle) (query : QueryHandle) : Except Error Unit :=
  if query.region = db.region ∧ query.connection = db.connection then .ok ()
  else .error (.badQuery .foreignQuery)

/-- Changes a region after a check of the arguments. -/
def checkedOn {α : Type} (e : Engine) (check : Except Error Unit) (db : DbHandle)
    (change : Region → Except Error α × Region) : Except Error α × Engine :=
  match check with
  | .error err => (.error err, e)
  | .ok () => e.onRegion db change

/-! ## Records -/

/-- Fails if a record may not have so many fields. -/
def checkLength (e : Engine) (length : Nat) : Except Error Unit :=
  if e.settings.maxFieldCount < length then
    .error (.invalidArgument (.recordTooLong length e.settings.maxFieldCount))
  else
    .ok ()

/-- Creates a record of unset fields. -/
def create (e : Engine) (db : DbHandle) (length : Nat) :
    Except Error (Attempt RecordHandle) × Engine :=
  e.checkedOn (e.checkLength length) db fun r =>
    reword (Attempt.map db.record) (r.create length)

/-- The oldest record. -/
def first (e : Engine) (db : DbHandle) : Except Error (Option RecordHandle) :=
  e.askRegion db fun r => .ok (r.first.map db.record)

/-- The record created next after a given one. -/
def next (e : Engine) (db : DbHandle) (rec : RecordHandle) :
    Except Error (Option RecordHandle) :=
  (checkRecord db rec).bind fun _ =>
    e.askRegion db fun r => (r.next rec.key).map fun key => key.map db.record

/-- Deletes a record. -/
def delete (e : Engine) (db : DbHandle) (rec : RecordHandle) : Except Error Unit × Engine :=
  e.checkedOn (checkRecord db rec) db fun r => r.delete rec.key

/-- The number of fields of a record. -/
def length (e : Engine) (db : DbHandle) (rec : RecordHandle) : Except Error Nat :=
  (checkRecord db rec).bind fun _ => e.askRegion db fun r => r.length rec.key

/-! ## Fields -/

/-- Fails if a text contains a zero character. -/
def checkValue (value : FieldValue) : Except Error Unit :=
  if value.hasNul then .error (.invalidArgument .nulInString) else .ok ()

/-- Writes a field. -/
def set (e : Engine) (db : DbHandle) (rec : RecordHandle) (index : Nat) (value : FieldValue) :
    Except Error Unit × Engine :=
  e.checkedOn ((checkRecord db rec).bind fun _ => checkValue value) db fun r =>
    r.set rec.key index value

/-- Reads a field. -/
def get (e : Engine) (db : DbHandle) (rec : RecordHandle) (index : Nat) : Except Error Field :=
  (checkRecord db rec).bind fun _ => e.askRegion db fun r => r.get rec.key index

/-! ## Queries -/

/-- Fails unless the template of a query, if it has one, was obtained through the
attachment. -/
def checkTemplate (db : DbHandle) : Option RecordHandle → Except Error Unit
  | some rec => checkRecord db rec
  | none => .ok ()

/-- Builds a query. -/
def buildQuery (e : Engine) (db : DbHandle) (template : Option RecordHandle)
    (conditions : List Condition) (limit : Nat) : Except Error QueryHandle × Engine :=
  e.checkedOn (checkTemplate db template) db fun r =>
    reword db.query (r.buildQuery db.connection (template.map RecordHandle.key) conditions limit)

/-- Fetches the next row of a query. -/
def fetch (e : Engine) (db : DbHandle) (query : QueryHandle) :
    Except Error (Option RecordHandle) × Engine :=
  e.checkedOn (checkQuery db query) db fun r =>
    reword (Option.map db.record) (r.fetch db.connection query.key)

/-- Frees a query. -/
def freeQuery (e : Engine) (db : DbHandle) (query : QueryHandle) : Except Error Unit × Engine :=
  e.checkedOn (checkQuery db query) db fun r => r.freeQuery db.connection query.key

end Engine

end RecordStore
