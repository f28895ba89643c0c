import RecordStore.Ident
import RecordStore.SlotTable
/-!
# Handles — what an engine gives out for its objects

A handle is plain data. It names the region and the connection it was
obtained through and, for records and queries, the slot and generation of
the object. An engine checks every handle it is given, so a handle may also
be made up.
-/

namespace RecordStore

/-- The kind of object a handle refers to. -/
inductive HandleKind where
  | database
  | record
  | query
  | lock
  deriving DecidableEq, Repr

namespace HandleKind

/-- The name of the kind. -/
def name : HandleKind → String
  | database => "database"
  | record => "record"
  | query => "query"
  | lock => "lock"

end HandleKind

/-- One attachment of a connection to a region. -/
structure DbHandle where
  region : RegionId
  connection : ConnectionId
  /-- Whether the region is private to this connection. -/
  isLocal : Bool
  deriving DecidableEq, Repr

/-- A record of a region, as obtained through a connection. -/
structure RecordHandle where
  region : RegionId
  connection : ConnectionId
  key : SlotKey
  deriving DecidableEq, Repr

/-- A query of a region, as built through a connection. -/
structure QueryHandle where
  region : RegionId
  connection : ConnectionId
  key : SlotKey
  deriving DecidableEq, Repr

/-- The mode of a region lock. -/
inductive LockMode where
  /-- Held by any number of readers. -/
  | shared
  /-- Held by one writer alone. -/
  | exclusive
  deriving DecidableEq, Repr

namespace LockMode

/-- Whether locks of the two modes may be held together. -/
def compatible : LockMode → LockMode → Bool
  | shared, shared => true
  | _, _ => false

/-- The letter of the mode. -/
def text : LockMode → String
  | shared => "S"
  | exclusive => "X"

end LockMode

/-- A granted lock, to be given back when the lock is released. -/
structure LockToken where
  region : RegionId
  id : LockId
  mode : LockMode
  deriving DecidableEq, Repr

namespace DbHandle

/-- How messages show the attachment. -/
def text (db : DbHandle) : String :=
  s!"db[region={db.region.text}, conn={db.connection.text}]"

/-- The handle of a record of the region, under this attachment. -/
def record (db : DbHandle) (key : SlotKey) : RecordHandle := ⟨db.region, db.connection, key⟩

/-- The handle of a query of the region, under this attachment. -/
def query (db : DbHandle) (key : SlotKey) : QueryHandle := ⟨db.region, db.connection, key⟩

end DbHandle

namespace RecordHandle

/-- How messages show the record. -/
def text (rec : RecordHandle) : String :=
  s!"record#{rec.key.slot}.{rec.key.generation}"

end RecordHandle

namespace QueryHandle

/-- How messages show the query. -/
def text (query : QueryHandle) : String :=
  s!"query#{query.key.slot}.{query.key.generation}"

end QueryHandle

namespace LockToken

/-- How messages show the token. -/
def text (token : LockToken) : String :=
  s!"lock[{token.mode.text}#{token.id.text}@{token.region.text}]"

end LockToken

end RecordStore
