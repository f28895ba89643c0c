import RecordStore.Client.Records
import RecordStore.Schema.Basic
/-!
# Objects in records

An object is written into a record of its own: its attributes in the order
of the schema, and the fingerprint of the schema behind them if that is
asked for. A write that fails leaves no record behind. A record is read as
an object only if it has the length that the schema expects, and the
fingerprint if one is asked for.
-/

namespace RecordStore

namespace Schema

variable {α : Type}

/-- The integers that an object comes to, in the order of their fields. -/
def encode (s : Schema α) (withFingerprint : Bool) (object : α) : List Int32 :=
  (s.attributes.map fun a => a.get object) ++ if withFingerprint then [s.fingerprint] else []

/-- The failure to read a record with the schema. -/
def mismatch (s : Schema α) (fault : MappingFault) : ClientError :=
  .engine (.mappingMismatch s.typeName fault)

end Schema

namespace Connection

variable {α : Type}

/-- Writes integers into the fields of a record from an index on. -/
def setInts (conn : Connection) (rec : RecordHandle) (index : Nat) : List Int32 → Action Unit
  | [] => pure ()
  | v :: rest => do
    conn.set rec index (.int v)
    conn.setInts rec (index + 1) rest

/-- Writes an object into a new record. If a field cannot be written, the record is deleted
and the write fails as the field did. A creation that panics breaks the write off. -/
def writeWith (conn : Connection) (s : Schema α) (withFingerprint : Bool) (object : α) :
    Action (Attempt RecordHandle) := do
  match ← conn.create (s.recordLength withFingerprint) with
  | .panicked p => return .panicked p
  | .done record =>
    tryCatch
      (do
        conn.setInts record 0 (s.encode withFingerprint object)
        return .done record)
      (fun e => do
        (conn.delete record).regardless
        throw e)

/-- Fails unless a record ends with the fingerprint of the schema. -/
def checkFingerprint (conn : Connection) (s : Schema α) (rec : RecordHandle) : Action Unit := do
  let stored ← conn.getInt rec s.size
  if stored = s.fingerprint then
    return ()
  else
    throw (s.mismatch (.fingerprint stored s.fingerprint))

/-- Reads attributes from the fields of a record from an index on into an object. -/
def getAttributes (conn : Connection) (rec : RecordHandle) (index : Nat) (object : α) :
    List (Attribute α) → Action α
  | [] => return object
  | a :: rest => do
    let v ← conn.getInt rec index
    conn.getAttributes rec (index + 1) (a.set object v) rest

/-- Reads an object from a record. -/
def readWith (conn : Connection) (s : Schema α) (withFingerprint : Bool) (rec : RecordHandle) :
    Action α := do
  let length ← conn.length rec
  if length ≠ s.recordLength withFingerprint then
    throw (s.mismatch (.length length (s.recordLength withFingerprint)))
  else
    if withFingerprint then
      conn.checkFingerprint s rec
    conn.getAttributes rec 0 s.blank s.attributes

/-- Writes an object as the settings of the connection say. -/
def writeObject (conn : Connection) (s : Schema α) (object : α) : Action (Attempt RecordHandle) :=
  conn.writeWith s conn.settings.mapper.fingerprint object

/-- Reads an object as the settings of the connection say. -/
def readObject (conn : Connection) (s : Schema α) (rec : RecordHandle) : Action α :=
  conn.readWith s conn.settings.mapper.fingerprint rec

end Connection

end RecordStore
