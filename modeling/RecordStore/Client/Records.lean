import RecordStore.Client.Basic
/-!
# Records and fields through a connection

Fields are written as values of any type. A field can be read as it is, or
as a value of one type, which fails if the field has another type or is
unset. A traversal visits the records of the region one by one while they
may change.
-/

namespace RecordStore

namespace Connection

/-! ## Records -/

/-- Creates a record of unset fields. -/
def create (conn : Connection) (length : Nat) : Action (Attempt RecordHandle) :=
  .change fun e => e.create conn.handle length

/-- The oldest record. -/
def first (conn : Connection) : Action (Option RecordHandle) := .ask fun e => e.first conn.handle

/-- The record created next after a given one. -/
def next (conn : Connection) (rec : RecordHandle) : Action (Option RecordHandle) :=
  .ask fun e => e.next conn.handle rec

/-- Deletes a record, unless deletions are refused. -/
def delete (conn : Connection) (rec : RecordHandle) : Action Unit :=
  .ofState fun c =>
    if c.faults.refusesDeletes then
      (.error (.engine (.internal (.text "delete refused"))), c)
    else
      (Action.change fun e => e.delete conn.handle rec).outcome c

/-- The number of fields of a record. -/
def length (conn : Connection) (rec : RecordHandle) : Action Nat :=
  .ask fun e => e.length conn.handle rec

/-! ## Fields -/

/-- Writes a field, unless the plan lets this write fail. -/
def set (conn : Connection) (rec : RecordHandle) (index : Nat) (value : FieldValue) :
    Action Unit :=
  .ofState fun c =>
    let counted := { c with writes := c.writes + 1 }
    if c.faults.failsWrite c.writes then
      (.error (.engine (c.faults.failure c.writes)), counted)
    else
      (Action.change fun e => e.set conn.handle rec index value).outcome counted

/-- Reads a field. -/
def get (conn : Connection) (rec : RecordHandle) (index : Nat) : Action Field :=
  .ask fun e => e.get conn.handle rec index

/-- The type of a field; an unset field has none. -/
def typeOf (conn : Connection) (rec : RecordHandle) (index : Nat) : Action (Option FieldType) :=
  return (← conn.get rec index).map FieldValue.type

/-- Takes the value of a field apart as a value of the expected type. -/
def typed {β : Type} (index : Nat) (expected : FieldType) (extract : FieldValue → Option β) :
    Field → Except Error β
  | none => .error (.fieldUnset index)
  | some value =>
    match extract value with
    | some b => .ok b
    | none => .error (.typeMismatch index expected value.type)

/-- Reads a field as a value of the expected type. -/
def getTyped {β : Type} (conn : Connection) (rec : RecordHandle) (index : Nat)
    (expected : FieldType) (extract : FieldValue → Option β) : Action β := do
  let field ← conn.get rec index
  Action.check ((typed index expected extract field).mapError .engine)

/-- Reads an integer. -/
def getInt (conn : Connection) (rec : RecordHandle) (index : Nat) : Action Int32 :=
  conn.getTyped rec index .int FieldValue.asInt?

/-- Reads a text. -/
def getString (conn : Connection) (rec : RecordHandle) (index : Nat) : Action String :=
  conn.getTyped rec index .string FieldValue.asString?

/-- Reads a blob. -/
def getBlob (conn : Connection) (rec : RecordHandle) (index : Nat) : Action ByteArray :=
  conn.getTyped rec index .blob FieldValue.asBlob?

end Connection

/-! ## Traversals -/

/-- Where a traversal stands. -/
inductive Traversal where
  | start
  /-- The record was visited last. -/
  | after (rec : RecordHandle)
  | ended
  deriving DecidableEq, Repr

namespace Traversal

/-- Visits the next record: gives it, or fails, or ends. After a failure the traversal has
ended. -/
def next (e : Engine) (db : DbHandle) (t : Traversal) :
    Option (Except Error RecordHandle) × Traversal :=
  let visit : Except Error (Option RecordHandle) → Option (Except Error RecordHandle) × Traversal
    | .ok (some rec) => (some (.ok rec), .after rec)
    | .ok none => (none, .ended)
    | .error err => (some (.error err), .ended)
  match t with
  | .start => visit (e.first db)
  | .after rec => visit (e.next db rec)
  | .ended => (none, .ended)

end Traversal

end RecordStore
